import XspliceDiff.Lemmas.Basic

/-!
# 含める段階の性質（§4.4）

`xsplice_include_symbol` は `include` の印だけを書き換える。再帰の一段ごとに、まだ含めていないセクションを
一つ含めるので、再帰の深さは含めていないセクションの数を超えない。モデルの燃料（セクションの数より一つ多い）は
足り、`Abort.hang` にならない。これを使って、変更された関数と新しい大域シンボルを含めるループが止まり、
選んだシンボルをすべて含めることを示す。最後に、`xsplice_verify_patchability` が成功する条件を §4.4 の言葉で
述べる。
-/

namespace XspliceDiff

/-! ## 含めていないセクションの数 -/

/-- `S` のうち、まだ含めていないセクションの数。`xsplice_include_symbol` の再帰の深さの上限である。 -/
def excludedCount (m : Mem) (S : List SecRef) : Nat := S.countP fun s => !(m.sec s).included

theorem Mem.Grows.excludedCount_le {m m' : Mem} (h : m.Grows m') (S : List SecRef) :
    excludedCount m' S ≤ excludedCount m S :=
  List.countP_mono_left fun s _ hs => by
    cases hm : (m.sec s).included
    · rfl
    · simp [h.secMono s hm] at hs

theorem excludedCount_includeSec_lt {m : Mem} {s : SecRef} (hs : (m.sec s).included = false) :
    ∀ {S : List SecRef}, s ∈ S → excludedCount (m.includeSec s) S < excludedCount m S
  | x :: S, hmem => by
    have hle := (Mem.Grows.includeSec m s).excludedCount_le S
    have hlt : s ∈ S → excludedCount (m.includeSec s) S < excludedCount m S := excludedCount_includeSec_lt hs
    simp only [excludedCount, List.countP_cons, Mem.includeSec_sec_included] at hle hlt ⊢
    by_cases hx : x = s
    · subst hx
      simp only [beq_self_eq_true, Bool.true_or, hs, Bool.false_or, Bool.not_true, Bool.not_false] at hle ⊢
      simp only [Bool.false_eq_true, if_false, if_true] at hle ⊢
      omega
    · have := hlt ((List.mem_cons.mp hmem).resolve_left (Ne.symm hx))
      simp only [beq_false_of_ne hx, Bool.false_or] at hle ⊢
      omega

/-! ## セクションを含める段 -/

theorem includeSectionOf_grows (m : Mem) (s : SecRef) (p : SymRef) :
    (m.includeSec s).Grows (includeSectionOf m s p) := by
  simp only [includeSectionOf]
  split
  · split_ifs
    exacts [.includeSym _ _, .refl _]
  · exact .refl _

theorem includeSym_sym_self_included (m : Mem) (p : SymRef) : ((m.includeSym p).sym p).included = true := by
  simp [Mem.includeSym_sym_included]

/-- シンボル `p` を含めるとき、そのセクション `s` を展開する：`s` はまだ含めておらず、`p` はセクションのシンボルか、
`SAME` でない。 -/
def Expands (m : Mem) (p : SymRef) (s : SecRef) : Prop :=
  (m.sym p).sec = some s ∧ (m.sec s).included = false ∧ ((m.sym p).type = STT_SECTION ∨ (m.sym p).status ≠ .same)

section Step

variable {fuel : Nat} {m : Mem} {p : SymRef} {s : SecRef}

theorem includeSymbol_stop (h : ∀ s, ¬Expands m p s) :
    xspliceIncludeSymbol (fuel + 1) m p = .ok (m.includeSym p) := by
  have hst := (Mem.Grows.includeSym m p).symStatus p
  cases hs : (m.sym p).sec with
  | none => simp [xspliceIncludeSymbol, hs]
  | some s =>
    have hcond : (m.sec s).included = true ∨ ¬(m.sym p).type = STT_SECTION ∧ (m.sym p).status = .same := by
      have := h s
      simp only [Expands, hs, true_and, Bool.not_eq_true] at this
      cases hi : (m.sec s).included <;> simp_all
    simp [xspliceIncludeSymbol, hs, hst, hcond]

theorem includeSymbol_expand (he : Expands m p s) :
    xspliceIncludeSymbol (fuel + 1) m p =
      match (m.sec s).rela with
      | none => .ok (includeSectionOf (m.includeSym p) s p)
      | some r => (m.sec r).relas.foldlM (fun m rela => xspliceIncludeSymbol fuel m rela.sym)
          ((includeSectionOf (m.includeSym p) s p).includeSec r) := by
  obtain ⟨hs, hinc, hexp⟩ := he
  have hst := (Mem.Grows.includeSym m p).symStatus p
  have hg := (Mem.Grows.includeSym m p).trans ((Mem.Grows.includeSec _ s).trans (includeSectionOf_grows _ s p))
  have hcond : ¬((m.sec s).included = true ∨ ¬(m.sym p).type = STT_SECTION ∧ (m.sym p).status = .same) := by
    rw [hinc]; tauto
  cases hr : (m.sec s).rela <;> simp [xspliceIncludeSymbol, hs, hst, hcond, hg.rela, hr, hg.relas]

end Step

/-! ## 燃料が足りること -/

/-- `S` は `Y` のシンボルのセクションをすべて持ち、`S` のセクションのリロケーションの参照先は `Y` にある。
ひとつのオブジェクトのセクションとシンボルのリストは、この形で閉じている。 -/
structure RelocClosed (m : Mem) (S : List SecRef) (Y : List SymRef) : Prop where
  symSec : ∀ y ∈ Y, ∀ s ∈ (m.sym y).sec, s ∈ S
  targets : ∀ s ∈ S, ∀ r ∈ (m.sec s).rela, ∀ rela ∈ (m.sec r).relas, rela.sym ∈ Y

instance (m : Mem) (S : List SecRef) (Y : List SymRef) : Decidable (RelocClosed m S Y) :=
  decidable_of_iff ((∀ y ∈ Y, ∀ s ∈ (m.sym y).sec, s ∈ S) ∧
      ∀ s ∈ S, ∀ r ∈ (m.sec s).rela, ∀ rela ∈ (m.sec r).relas, rela.sym ∈ Y)
    ⟨fun h => ⟨h.1, h.2⟩, fun h => ⟨h.1, h.2⟩⟩

theorem RelocClosed.grows {m m' : Mem} {S : List SecRef} {Y : List SymRef} (hc : RelocClosed m S Y)
    (h : m.Grows m') : RelocClosed m' S Y :=
  ⟨fun y hy s hs => hc.symSec y hy s (h.symSec y ▸ hs),
   fun s hs r hr rela hrela => hc.targets s hs r (h.rela s ▸ hr) rela (h.relas r ▸ hrela)⟩

section Fuel

variable {S : List SecRef} {Y : List SymRef}

/-- 展開は、まだ含めていないセクション `s` を含めるので、含めていないセクションの数は減る。 -/
theorem excludedCount_expand_lt {m : Mem} {p : SymRef} {s : SecRef} (hc : RelocClosed m S Y) (hp : p ∈ Y)
    (he : Expands m p s) : excludedCount (includeSectionOf (m.includeSym p) s p) S < excludedCount m S :=
  calc excludedCount (includeSectionOf (m.includeSym p) s p) S
      ≤ excludedCount ((m.includeSym p).includeSec s) S := (includeSectionOf_grows _ s p).excludedCount_le S
    _ < excludedCount (m.includeSym p) S := excludedCount_includeSec_lt he.2.1 (hc.symSec p hp s he.1)
    _ ≤ excludedCount m S := (Mem.Grows.includeSym m p).excludedCount_le S

theorem foldlM_includeSymbol_ok {fuel : Nat}
    (ih : ∀ m p, RelocClosed m S Y → p ∈ Y → excludedCount m S < fuel →
      ∃ m', xspliceIncludeSymbol fuel m p = .ok m' ∧ m.Grows m' ∧ (m'.sym p).included = true) :
    ∀ (relas : List Rela) (m : Mem), RelocClosed m S Y → (∀ rela ∈ relas, rela.sym ∈ Y) →
      excludedCount m S < fuel →
      ∃ m', relas.foldlM (fun m rela => xspliceIncludeSymbol fuel m rela.sym) m = .ok m' ∧ m.Grows m'
  | [], m, _, _, _ => ⟨m, rfl, .refl m⟩
  | rela :: relas, m, hc, hY, hlt => by
    obtain ⟨m1, h1, hg1, -⟩ := ih m rela.sym hc (hY rela (List.mem_cons_self _ _)) hlt
    obtain ⟨m2, h2, hg2⟩ := foldlM_includeSymbol_ok ih relas m1 (hc.grows hg1)
      (fun r hr => hY r (List.mem_cons_of_mem _ hr)) (Nat.lt_of_le_of_lt (hg1.excludedCount_le S) hlt)
    exact ⟨m2, by simp only [List.foldlM_cons, h1, ok_bind, h2], hg1.trans hg2⟩

/-- `xsplice_include_symbol` は、含めていないセクションの数より多い燃料があれば成功し、`p` を含め、
印を増やすだけである。 -/
theorem includeSymbol_ok :
    ∀ (fuel : Nat) (m : Mem) (p : SymRef), RelocClosed m S Y → p ∈ Y → excludedCount m S < fuel →
      ∃ m', xspliceIncludeSymbol fuel m p = .ok m' ∧ m.Grows m' ∧ (m'.sym p).included = true
  | 0, _, _, _, _, hlt => absurd hlt (Nat.not_lt_zero _)
  | fuel + 1, m, p, hc, hp, hlt => by
    have hg1 := Mem.Grows.includeSym m p
    have hp1 := includeSym_sym_self_included m p
    by_cases he : ∃ s, Expands m p s
    · obtain ⟨s, he⟩ := he
      have hg2 := (Mem.Grows.includeSec _ s).trans (includeSectionOf_grows (m.includeSym p) s p)
      have hlt2 := excludedCount_expand_lt hc hp he
      rw [includeSymbol_expand he]
      split
      · exact ⟨_, rfl, hg1.trans hg2, hg2.symMono p hp1⟩
      · next r hr =>
        have hg3 := Mem.Grows.includeSec (includeSectionOf (m.includeSym p) s p) r
        obtain ⟨m', h', hg'⟩ := foldlM_includeSymbol_ok (includeSymbol_ok fuel) _ _ (hc.grows (hg1.trans (hg2.trans hg3)))
          (hc.targets s (hc.symSec p hp s he.1) r hr) (by have := hg3.excludedCount_le S; omega)
        exact ⟨m', h', hg1.trans (hg2.trans (hg3.trans hg')), (hg2.trans (hg3.trans hg')).symMono p hp1⟩
    · push_neg at he
      exact ⟨_, includeSymbol_stop he, hg1, hp1⟩

theorem foldlM_includeSymbol_fuel_succ {fuel : Nat}
    (ih : ∀ m p, RelocClosed m S Y → p ∈ Y → excludedCount m S < fuel →
      xspliceIncludeSymbol (fuel + 1) m p = xspliceIncludeSymbol fuel m p) :
    ∀ (relas : List Rela) (m : Mem), RelocClosed m S Y → (∀ rela ∈ relas, rela.sym ∈ Y) →
      excludedCount m S < fuel →
      relas.foldlM (fun m rela => xspliceIncludeSymbol (fuel + 1) m rela.sym) m =
        relas.foldlM (fun m rela => xspliceIncludeSymbol fuel m rela.sym) m
  | [], _, _, _, _ => rfl
  | rela :: relas, m, hc, hY, hlt => by
    have hmem := hY rela (List.mem_cons_self _ _)
    obtain ⟨m1, h1, hg1, -⟩ := includeSymbol_ok fuel m rela.sym hc hmem hlt
    rw [List.foldlM_cons, List.foldlM_cons, ih m rela.sym hc hmem hlt, h1, ok_bind, ok_bind]
    exact foldlM_includeSymbol_fuel_succ ih relas m1 (hc.grows hg1) (fun r hr => hY r (List.mem_cons_of_mem _ hr))
      (Nat.lt_of_le_of_lt (hg1.excludedCount_le S) hlt)

/-- 燃料が含めていないセクションの数より多ければ、燃料を一つ増やしても答えは変わらない。 -/
theorem includeSymbol_fuel_succ :
    ∀ (fuel : Nat) (m : Mem) (p : SymRef), RelocClosed m S Y → p ∈ Y → excludedCount m S < fuel →
      xspliceIncludeSymbol (fuel + 1) m p = xspliceIncludeSymbol fuel m p
  | 0, _, _, _, _, hlt => absurd hlt (Nat.not_lt_zero _)
  | fuel + 1, m, p, hc, hp, hlt => by
    by_cases he : ∃ s, Expands m p s
    · obtain ⟨s, he⟩ := he
      rw [includeSymbol_expand he, includeSymbol_expand he]
      split
      · rfl
      · next r hr =>
        have hg := (Mem.Grows.includeSec (includeSectionOf (m.includeSym p) s p) r)
        have hmid := (Mem.Grows.includeSym m p).trans ((Mem.Grows.includeSec _ s).trans (includeSectionOf_grows _ s p))
        refine foldlM_includeSymbol_fuel_succ (includeSymbol_fuel_succ fuel) _ _ (hc.grows (hmid.trans hg))
          (hc.targets s (hc.symSec p hp s he.1) r hr) ?_
        have := excludedCount_expand_lt hc hp he
        have := hg.excludedCount_le S
        omega
    · push_neg at he
      rw [includeSymbol_stop he, includeSymbol_stop he]

/-- `xsplice_include_symbol` は、リロケーションが循環していても（自分を呼ぶ関数、互いに呼び合う関数、自分の
セクションのシンボルを参照するセクション）止まる。展開のたびに、まだ含めていないセクションを一つ含めるので、
含めていないセクションの数より多いどの燃料でも、同じ答え `m'` を返す。したがって、展開の連鎖の長さは含めて
いないセクションの数を超えず、その数はセクションの数を超えない。 -/
theorem include_symbol_terminates {m : Mem} {p : SymRef} (hc : RelocClosed m S Y) (hp : p ∈ Y) :
    excludedCount m S ≤ S.length ∧
    ∃ m', m.Grows m' ∧ ∀ fuel, excludedCount m S < fuel → xspliceIncludeSymbol fuel m p = .ok m' := by
  obtain ⟨m', h, hg, -⟩ := includeSymbol_ok (excludedCount m S + 1) m p hc hp (Nat.lt_succ_self _)
  refine ⟨List.countP_le_length _, m', hg, fun fuel hfuel => ?_⟩
  induction fuel, hfuel using Nat.le_induction with
  | base => exact h
  | succ fuel hle ih => rw [includeSymbol_fuel_succ fuel m p hc hp hle, ih]

end Fuel

/-- 変更された `f`（セクション 0、リロケーション 1）と新しい大域の `g`（セクション 2、リロケーション 3）が
互いを参照する。シンボルは `f`、`g`、`STT_FILE` のシンボル、`.text.f`、`.text.g` のセクションのシンボル。 -/
def mutualCallExample : Mem := Mem.ofLists
  [{ name := ".text.f", secsym := some 3, rela := some 1 },
   { name := ".rela.text.f", sh := { shType := SHT_RELA }, base := some 0, relas := [{ sym := 1 }] },
   { name := ".text.g", secsym := some 4, rela := some 3 },
   { name := ".rela.text.g", sh := { shType := SHT_RELA }, base := some 2, relas := [{ sym := 0 }] }]
  [{ name := "f", type := STT_FUNC, sec := some 0, status := .changed },
   { name := "g", type := STT_FUNC, bind := STB_GLOBAL, sec := some 2 },
   { name := "patch.c", type := STT_FILE },
   { name := ".text.f", type := STT_SECTION, sec := some 0 },
   { name := ".text.g", type := STT_SECTION, sec := some 2 }]

/-- `mutualCallExample` のオブジェクト。 -/
def mutualCallElf : Elf := { sections := [0, 1, 2, 3], symbols := [0, 1, 2, 3, 4] }

theorem mutual_call_example_terminates :
    RelocClosed mutualCallExample mutualCallElf.sections mutualCallElf.symbols ∧ 0 ∈ mutualCallElf.symbols ∧
    excludedCount mutualCallExample mutualCallElf.sections ≤ mutualCallElf.sections.length ∧
    ∃ m', mutualCallExample.Grows m' ∧ ∀ fuel, excludedCount mutualCallExample mutualCallElf.sections < fuel →
      xspliceIncludeSymbol fuel mutualCallExample 0 = .ok m' :=
  ⟨by decide, by decide,
    @include_symbol_terminates mutualCallElf.sections mutualCallElf.symbols mutualCallExample 0 (by decide) (by decide)⟩


/-! ## シンボルを選んで含めるループ

`xsplice_include_changed_functions` と `xsplice_include_new_globals` は同じ形のループである：シンボルのリストを
たどり、条件 `sel` に合うシンボルを `xsplice_include_symbol` で含めて数える。前者は、さらに `STT_FILE` の
シンボル（条件 `extra`）に印を付ける。 -/

/-- `xsplice_include_changed_functions` が選ぶシンボル。 -/
def isChangedFunction (y : Symbol) : Bool := y.status == .changed && y.type == STT_FUNC

/-- `xsplice_include_changed_functions` が印だけを付けるシンボル。 -/
def isFileSymbol (y : Symbol) : Bool := y.type == STT_FILE

/-- `xsplice_include_new_globals` が選ぶシンボル。 -/
def isNewGlobal (y : Symbol) : Bool := y.bind == STB_GLOBAL && y.sec.isSome && y.status == .new

/-- ループの結果 `(m', n)` について §4.4 が述べること（`l` はたどったシンボル）：印を増やすだけで、
`sel` に合うシンボルと `extra` に合うシンボルをすべて含め、`n` は `sel` に合うシンボルの数である。 -/
structure SelectedIncluded (sel extra : Symbol → Bool) (m : Mem) (l : List SymRef) (m' : Mem) (n : Nat) : Prop where
  grows : m.Grows m'
  selected : ∀ p ∈ l, sel (m.sym p) = true → (m'.sym p).included = true
  extraIncluded : ∀ p ∈ l, extra (m.sym p) = true → (m'.sym p).included = true
  count : n = l.countP fun p => sel (m.sym p)

section Selected

variable {sel extra : Symbol → Bool}

theorem Mem.Grows.sym_eq_of_unmarked {m m' : Mem} (h : m.Grows m') {c : Symbol → Bool}
    (hc : ∀ y, c y.unmarked = c y) (y : SymRef) : c (m'.sym y) = c (m.sym y) := by
  rw [← hc, h.sym y, hc]

theorem SelectedIncluded.single {m m' : Mem} {p : SymRef} {k : Nat} (hg : m.Grows m')
    (hinc : (m'.sym p).included = true ∨ sel (m.sym p) = false ∧ extra (m.sym p) = false)
    (hk : k = if sel (m.sym p) then 1 else 0) :
    SelectedIncluded sel extra m [p] m' k where
  grows := hg
  selected q hq hs := by
    obtain rfl := List.mem_singleton.mp hq
    exact hinc.resolve_right fun h => by simp [h.1] at hs
  extraIncluded q hq he := by
    obtain rfl := List.mem_singleton.mp hq
    exact hinc.resolve_right fun h => by simp [h.2] at he
  count := by
    subst hk
    simp only [List.countP_cons, List.countP_nil, Nat.zero_add]

variable (hsel : ∀ y, sel y.unmarked = sel y) (hextra : ∀ y, extra y.unmarked = extra y)
include hsel hextra

theorem SelectedIncluded.cons {m m1 m2 : Mem} {p : SymRef} {rest : List SymRef} {k1 k2 : Nat}
    (h1 : SelectedIncluded sel extra m [p] m1 k1) (h2 : SelectedIncluded sel extra m1 rest m2 k2) :
    SelectedIncluded sel extra m (p :: rest) m2 (k1 + k2) where
  grows := h1.grows.trans h2.grows
  selected q hq hs := by
    rcases List.mem_cons.mp hq with rfl | hq
    · exact h2.grows.symMono q (h1.selected q (List.mem_singleton_self _) hs)
    · exact h2.selected q hq (h1.grows.sym_eq_of_unmarked hsel q ▸ hs)
  extraIncluded q hq he := by
    rcases List.mem_cons.mp hq with rfl | hq
    · exact h2.grows.symMono q (h1.extraIncluded q (List.mem_singleton_self _) he)
    · exact h2.extraIncluded q hq (h1.grows.sym_eq_of_unmarked hextra q ▸ he)
  count := by
    simp only [h1.count, h2.count, List.countP_cons, List.countP_nil, h1.grows.sym_eq_of_unmarked hsel]
    omega

theorem foldlM_selectedIncluded {kelf : Elf} {f : Mem × Nat → SymRef → Except Abort (Mem × Nat)}
    (hf : ∀ m n p, RelocClosed m kelf.sections kelf.symbols → p ∈ kelf.symbols →
      ∃ m' k, f (m, n) p = .ok (m', n + k) ∧ SelectedIncluded sel extra m [p] m' k) :
    ∀ (rest : List SymRef) (m : Mem) (n : Nat), RelocClosed m kelf.sections kelf.symbols →
      (∀ p ∈ rest, p ∈ kelf.symbols) →
      ∃ m' k, rest.foldlM f (m, n) = .ok (m', n + k) ∧ SelectedIncluded sel extra m rest m' k
  | [], m, _, _, _ => ⟨m, 0, rfl, .refl m, by simp, by simp, rfl⟩
  | p :: rest, m, n, hc, hrest => by
    obtain ⟨m1, k1, h1, hi1⟩ := hf m n p hc (hrest p (List.mem_cons_self _ _))
    obtain ⟨m2, k2, h2, hi2⟩ := foldlM_selectedIncluded hf rest m1 _ (hc.grows hi1.grows)
      (fun q hq => hrest q (List.mem_cons_of_mem _ hq))
    exact ⟨m2, _, by rw [List.foldlM_cons, h1, ok_bind, h2, Nat.add_assoc], hi1.cons hsel hextra hi2⟩

end Selected

theorem excludedCount_lt_includeFuel (m : Mem) (kelf : Elf) : excludedCount m kelf.sections < includeFuel kelf :=
  Nat.lt_succ_of_le (List.countP_le_length _)

/-! ## 変更された関数を含める -/

theorem includeChangedFunction_ok {kelf : Elf} {m : Mem} {p : SymRef} (n : Nat)
    (hc : RelocClosed m kelf.sections kelf.symbols) (hp : p ∈ kelf.symbols) :
    ∃ m' k, includeChangedFunction (includeFuel kelf) (m, n) p = .ok (m', n + k) ∧
      SelectedIncluded isChangedFunction isFileSymbol m [p] m' k := by
  obtain ⟨m1, h1, hg1, hinc1⟩ := includeSymbol_ok (includeFuel kelf) m p hc hp (excludedCount_lt_includeFuel m kelf)
  have hsel : isChangedFunction (m.sym p) = true ↔ (m.sym p).status = .changed ∧ (m.sym p).type = STT_FUNC := by
    simp only [isChangedFunction, Bool.and_eq_true, beq_iff_eq]
  simp only [includeChangedFunction]
  split_ifs with hcf
  · simp only [h1, ok_bind, pure_bind, hg1.symType]
    split_ifs
    · exact ⟨_, 1, rfl, .single (hg1.trans (.includeSym _ _)) (.inl (includeSym_sym_self_included _ _))
        (if_pos (hsel.mpr hcf)).symm⟩
    · exact ⟨_, 1, rfl, .single hg1 (.inl hinc1) (if_pos (hsel.mpr hcf)).symm⟩
  · simp only [pure_bind]
    split_ifs with hft
    · exact ⟨_, 0, rfl, .single (.includeSym _ _) (.inl (includeSym_sym_self_included _ _))
        (if_neg (mt hsel.mp hcf)).symm⟩
    · exact ⟨_, 0, rfl, .single (.refl _)
        (.inr ⟨Bool.eq_false_iff.mpr (mt hsel.mp hcf), by simpa [isFileSymbol] using hft⟩)
        (if_neg (mt hsel.mp hcf)).symm⟩

/-- オブジェクトのセクションとシンボルのリストが閉じていれば、`xsplice_include_changed_functions` は
（関数が互いに呼び合っていても）止まって成功し、`CHANGED` の関数と `STT_FILE` のシンボルをすべて含め、
印のほかは何も変えず、`CHANGED` の関数の数を返す。 -/
theorem include_changed_functions_ok {m : Mem} {kelf : Elf} (hc : RelocClosed m kelf.sections kelf.symbols) :
    ∃ m' n, xspliceIncludeChangedFunctions m kelf = .ok (m', n) ∧
      SelectedIncluded isChangedFunction isFileSymbol m kelf.symbols m' n := by
  obtain ⟨m', k, h, hi⟩ := @foldlM_selectedIncluded isChangedFunction isFileSymbol (fun _ => rfl) (fun _ => rfl) _ _
    (fun m n _ hc hp => includeChangedFunction_ok n hc hp) kelf.symbols m 0 hc (fun _ h => h)
  exact ⟨m', k, by rw [xspliceIncludeChangedFunctions, h, Nat.zero_add], hi⟩

theorem mutual_call_example_included :
    ∃ m' n, xspliceIncludeChangedFunctions mutualCallExample mutualCallElf = .ok (m', n) ∧
      SelectedIncluded isChangedFunction isFileSymbol mutualCallExample mutualCallElf.symbols m' n :=
  @include_changed_functions_ok mutualCallExample mutualCallElf (by decide)

example : (xspliceIncludeChangedFunctions mutualCallExample mutualCallElf).toOption.map
    (fun (m, n) => ([0, 1, 2, 3].map fun s => (m.sec s).included, n)) = some ([true, true, true, true], 1) := by
  decide

/-! ## 新しい大域シンボルを含める -/

theorem includeNewGlobal_ok {kelf : Elf} {m : Mem} {p : SymRef} (n : Nat)
    (hc : RelocClosed m kelf.sections kelf.symbols) (hp : p ∈ kelf.symbols) :
    ∃ m' k, includeNewGlobal (includeFuel kelf) (m, n) p = .ok (m', n + k) ∧
      SelectedIncluded isNewGlobal (fun _ => false) m [p] m' k := by
  obtain ⟨m1, h1, hg1, hinc1⟩ := includeSymbol_ok (includeFuel kelf) m p hc hp (excludedCount_lt_includeFuel m kelf)
  have hsel : isNewGlobal (m.sym p) = true ↔
      (m.sym p).bind = STB_GLOBAL ∧ (m.sym p).sec.isSome ∧ (m.sym p).status = .new := by
    simp only [isNewGlobal, Bool.and_eq_true, beq_iff_eq, and_assoc]
  simp only [includeNewGlobal]
  split_ifs with hng
  · exact ⟨_, 1, by rw [h1]; rfl, .single hg1 (.inl hinc1) (if_pos (hsel.mpr hng)).symm⟩
  · exact ⟨_, 0, rfl, .single (.refl _) (.inr ⟨Bool.eq_false_iff.mpr (mt hsel.mp hng), rfl⟩)
      (if_neg (mt hsel.mp hng)).symm⟩

/-- オブジェクトのセクションとシンボルのリストが閉じていれば、`xsplice_include_new_globals` は止まって成功し、
セクションを持つ `NEW` の大域シンボルをすべて含め、印のほかは何も変えず、その数を返す。 -/
theorem include_new_globals_ok {m : Mem} {kelf : Elf} (hc : RelocClosed m kelf.sections kelf.symbols) :
    ∃ m' n, xspliceIncludeNewGlobals m kelf = .ok (m', n) ∧
      SelectedIncluded isNewGlobal (fun _ => false) m kelf.symbols m' n := by
  obtain ⟨m', k, h, hi⟩ := @foldlM_selectedIncluded isNewGlobal (fun _ => false) (fun _ => rfl) (fun _ => rfl) _ _
    (fun m n _ hc hp => includeNewGlobal_ok n hc hp) kelf.symbols m 0 hc (fun _ h => h)
  exact ⟨m', k, by rw [xspliceIncludeNewGlobals, h, Nat.zero_add], hi⟩

theorem mutual_call_example_new_globals :
    ∃ m' n, xspliceIncludeNewGlobals mutualCallExample mutualCallElf = .ok (m', n) ∧
      SelectedIncluded isNewGlobal (fun _ => false) mutualCallExample mutualCallElf.symbols m' n :=
  @include_new_globals_ok mutualCallExample mutualCallElf (by decide)

/-! ## パッチにできるかの確認 -/

/-- base の `foo.isra.1` はリロケーションを持たず、patched の `foo.isra.2` は `bar` を呼ぶリロケーションを持つ。
patched には、セクションのシンボルを持たない `.debug_info` もある。 -/
def leafCloneExample : Mem := Mem.ofLists
  [{ name := ".text.foo.isra.1", sh := { shType := SHT_PROGBITS, shFlags := 6, shSize := 4 }, sym := some 0 },
   { name := ".text.foo.isra.2", sh := { shType := SHT_PROGBITS, shFlags := 6, shSize := 8 }, sym := some 1,
     rela := some 2 },
   { name := ".rela.text.foo.isra.2", sh := { shType := SHT_RELA, shEntsize := 24, shSize := 24 }, base := some 1,
     relas := [{ sym := 2, type := R_X86_64_PC32, addend := -4, offset := 1, rOffset := 1 }] },
   { name := ".debug_info", sh := { shType := SHT_PROGBITS, shSize := 4 } }]
  [{ name := "foo.isra.1", type := STT_FUNC, sec := some 0 },
   { name := "foo.isra.2", type := STT_FUNC, sec := some 1 },
   { name := "bar", type := STT_FUNC, bind := STB_GLOBAL }]

/-- `leafCloneExample` の base：セクション 0 とシンボル 0。 -/
def leafCloneBase : Elf := { sections := [0], symbols := [0] }

/-- `leafCloneExample` の patched：セクション 1 から 3 と、シンボル 1 と 2。 -/
def leafClonePatched : Elf := { sections := [1, 2, 3], symbols := [1, 2] }

/-- 改名は base の関数の無いリロケーションのセクションを、デバッグのセクションを含める段階は無いセクションの
シンボルをたどる。 -/
theorem absent_links_dereferenced :
    xspliceRenameMangledFunctions leafCloneExample leafCloneBase leafClonePatched =
      .error (.undefined "basesym->sec->rela") ∧
    xspliceIncludeDebugSections leafCloneExample leafClonePatched = .error (.undefined "sec->secsym") :=
  ⟨rfl, rfl⟩

end XspliceDiff

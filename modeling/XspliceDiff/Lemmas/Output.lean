import XspliceDiff.Lemmas.Basic

/-!
# 出力のモデルへ移し、番号を振ることの性質（§4.7）

`xsplice_migrate_included_elements` は、含めたセクションとシンボルを順序を保って出力のモデルに移し、
含めない要素へのリンクを切る。移した後、シンボルのセクションへのリンクと、セクションのシンボルへのリンクは
出力のモデルの外を指さない。リロケーションの参照先は別で、含めないシンボルを指したまま残りうる。
`xsplice_reorder_symbols` はシンボルを五つの組に安定に振り分け、続く `xsplice_reindex_elements` は、位置の
とおりに番号を振り、`st_shndx` をセクションの新しい番号にする。
-/

namespace XspliceDiff

/-- モデル `e` の中で、シンボルのセクションへのリンクと、リロケーションのセクションでないセクションの
シンボルへのリンクが、`e` の外を指さない。 -/
structure LinksClosed (m : Mem) (e : Elf) : Prop where
  symSec : ∀ y ∈ e.symbols, ∀ s ∈ (m.sym y).sec, s ∈ e.sections
  secSym : ∀ s ∈ e.sections, isRelaSection (m.sec s) = false → ∀ y ∈ (m.sec s).secsym, y ∈ e.symbols

/-! ## セクションの一周 -/

/-- セクション `s` のシンボルへのリンクは、含めたシンボルだけを指す。 -/
def SecsymIncluded (m : Mem) (s : SecRef) : Prop :=
  isRelaSection (m.sec s) = false → ∀ y ∈ (m.sec s).secsym, (m.sym y).included = true

@[simp] theorem migrateSection_sym (m : Mem) (p : SecRef) : (migrateSection m p).sym = m.sym := rfl

theorem migrateSection_sec (m : Mem) (p s : SecRef) :
    ((migrateSection m p).sec s).included = (m.sec s).included ∧ ((migrateSection m p).sec s).sh = (m.sec s).sh ∧
      ∀ y ∈ ((migrateSection m p).sec s).secsym, y ∈ (m.sec s).secsym := by
  by_cases h : s = p
  · subst h
    simp only [migrateSection, Mem.modSec_sec_self, true_and]
    split_ifs <;> simp
  · simp [migrateSection, h]

theorem migrateSection_secsymIncluded (m : Mem) (p s : SecRef) (h : s = p ∨ SecsymIncluded m s) :
    SecsymIncluded (migrateSection m p) s := by
  obtain ⟨-, hsh, hsub⟩ := migrateSection_sec m p s
  intro hrela y hy
  rcases h with rfl | h
  · have hrela' : ((m.sec s).sh.shType == SHT_RELA) = false := by rwa [isRelaSection, hsh] at hrela
    simp only [migrateSection, Mem.modSec_sec_self] at hy ⊢
    split_ifs at hy with hcut
    · cases hy
    · rw [Option.mem_def] at hy
      simpa [isRelaSection, hy, hrela'] using hcut
  · exact h (by rwa [isRelaSection, ← hsh]) y (hsub y hy)

theorem foldl_migrateSection :
    ∀ (l : List SecRef) (m : Mem) (s : SecRef), s ∈ l ∨ SecsymIncluded m s →
      SecsymIncluded (l.foldl migrateSection m) s
  | [], _, _, h => h.resolve_left (List.not_mem_nil _)
  | p :: l, m, s, h => by
    by_cases hs : s ∈ l
    · exact foldl_migrateSection l _ s (.inl hs)
    · refine foldl_migrateSection l _ s (.inr (migrateSection_secsymIncluded m p s ?_))
      rcases h with h | h
      · exact .inl ((List.mem_cons.mp h).resolve_right hs)
      · exact .inr h

theorem foldl_migrateSection_sec :
    ∀ (l : List SecRef) (m : Mem) (s : SecRef),
      ((l.foldl migrateSection m).sec s).included = (m.sec s).included ∧
      ((l.foldl migrateSection m).sec s).sh = (m.sec s).sh ∧
      ∀ y ∈ ((l.foldl migrateSection m).sec s).secsym, y ∈ (m.sec s).secsym
  | [], _, _ => ⟨rfl, rfl, fun _ h => h⟩
  | p :: l, m, s => by
    obtain ⟨h1, h2, h3⟩ := foldl_migrateSection_sec l (migrateSection m p) s
    obtain ⟨h1', h2', h3'⟩ := migrateSection_sec m p s
    exact ⟨h1.trans h1', h2.trans h2', fun y hy => h3' y (h3 y hy)⟩

/-! ## シンボルの一周 -/

/-- シンボル `y` のセクションへのリンクは、含めたセクションだけを指す。 -/
def SecIncluded (m : Mem) (y : SymRef) : Prop := ∀ s ∈ (m.sym y).sec, (m.sec s).included = true

@[simp] theorem migrateSymbol_sec (m : Mem) (p : SymRef) : (migrateSymbol m p).sec = m.sec := rfl

theorem migrateSymbol_sym (m : Mem) (p y : SymRef) :
    ((migrateSymbol m p).sym y).included = (m.sym y).included ∧
      ∀ s ∈ ((migrateSymbol m p).sym y).sec, s ∈ (m.sym y).sec := by
  by_cases h : y = p
  · subst h
    simp only [migrateSymbol, Mem.modSym_sym_self, true_and]
    split_ifs <;> simp
  · simp [migrateSymbol, h]

theorem migrateSymbol_secIncluded (m : Mem) (p y : SymRef) (h : y = p ∨ SecIncluded m y) :
    SecIncluded (migrateSymbol m p) y := by
  intro s hs
  rcases h with rfl | h
  · simp only [migrateSymbol, Mem.modSym_sym_self] at hs ⊢
    split_ifs at hs with hcut
    · cases hs
    · rw [Option.mem_def] at hs
      simpa [hs] using hcut
  · exact h s ((migrateSymbol_sym m p y).2 s hs)

theorem foldl_migrateSymbol :
    ∀ (l : List SymRef) (m : Mem) (y : SymRef), y ∈ l ∨ SecIncluded m y → SecIncluded (l.foldl migrateSymbol m) y
  | [], _, _, h => h.resolve_left (List.not_mem_nil _)
  | p :: l, m, y, h => by
    by_cases hy : y ∈ l
    · exact foldl_migrateSymbol l _ y (.inl hy)
    · refine foldl_migrateSymbol l _ y (.inr (migrateSymbol_secIncluded m p y ?_))
      rcases h with h | h
      · exact .inl ((List.mem_cons.mp h).resolve_right hy)
      · exact .inr h

theorem foldl_migrateSymbol_sym :
    ∀ (l : List SymRef) (m : Mem) (y : SymRef),
      ((l.foldl migrateSymbol m).sym y).included = (m.sym y).included ∧
      ∀ s ∈ ((l.foldl migrateSymbol m).sym y).sec, s ∈ (m.sym y).sec
  | [], _, _ => ⟨rfl, fun _ h => h⟩
  | p :: l, m, y => by
    obtain ⟨h1, h2⟩ := foldl_migrateSymbol_sym l (migrateSymbol m p) y
    obtain ⟨h1', h2'⟩ := migrateSymbol_sym m p y
    exact ⟨h1.trans h1', fun s hs => h2' s (h2 s hs)⟩

/-! ## 移した後のリンク -/

/-- patched のシンボルのセクションが patched のセクションならば、移した後のシンボルのセクションは、移した
セクションである。 -/
theorem migrate_symSec_closed {m : Mem} {kelf : Elf}
    (hsym : ∀ y ∈ kelf.symbols, ∀ s ∈ (m.sym y).sec, s ∈ kelf.sections) :
    ∀ y ∈ (xspliceMigrateIncludedElements m kelf).2.1.symbols, ∀ s ∈ ((xspliceMigrateIncludedElements m kelf).1.sym y).sec,
      s ∈ (xspliceMigrateIncludedElements m kelf).2.1.sections := by
  simp only [xspliceMigrateIncludedElements]
  generalize hsecs : kelf.sections.filter (fun p => (m.sec p).included) = secs
  generalize hm1 : secs.foldl migrateSection m = m1
  have hsym1 : m1.sym = m.sym := hm1 ▸ Mem.foldl_sym_eq migrateSection_sym secs m
  generalize hsyms : kelf.symbols.filter (fun p => (m1.sym p).included) = syms
  have hsec2 : (syms.foldl migrateSymbol m1).sec = m1.sec := Mem.foldl_sec_eq migrateSymbol_sec syms m1
  intro y hy s hs
  obtain ⟨hy0, -⟩ := List.mem_filter.mp (hsyms ▸ hy)
  have hs0 : (m.sym y).sec = some s := hsym1 ▸ (foldl_migrateSymbol_sym syms m1 y).2 s hs
  have hin := foldl_migrateSymbol syms m1 y (.inl hy) s hs
  rw [hsec2, ← hm1, (foldl_migrateSection_sec secs m s).1] at hin
  exact hsecs ▸ List.mem_filter.mpr ⟨hsym y hy0 s hs0, hin⟩

/-- patched のモデルの中でリンクが閉じていれば、`xsplice_migrate_included_elements` の後の出力のモデルの中でも
閉じている：含めない要素へのリンクは切れ、残ったリンクは出力の要素を指す。 -/
theorem migrate_included_links_closed {m : Mem} {kelf : Elf}
    (hsym : ∀ y ∈ kelf.symbols, ∀ s ∈ (m.sym y).sec, s ∈ kelf.sections)
    (hsec : ∀ s ∈ kelf.sections, ∀ y ∈ (m.sec s).secsym, y ∈ kelf.symbols) :
    LinksClosed (xspliceMigrateIncludedElements m kelf).1 (xspliceMigrateIncludedElements m kelf).2.1 := by
  refine ⟨migrate_symSec_closed hsym, ?_⟩
  simp only [xspliceMigrateIncludedElements]
  generalize hsecs : kelf.sections.filter (fun p => (m.sec p).included) = secs
  generalize hm1 : secs.foldl migrateSection m = m1
  generalize hsyms : kelf.symbols.filter (fun p => (m1.sym p).included) = syms
  have hsec2 : (syms.foldl migrateSymbol m1).sec = m1.sec := Mem.foldl_sec_eq migrateSymbol_sec syms m1
  intro s hs hrela y hy
  rw [hsec2] at hrela hy
  obtain ⟨hs0, -⟩ := List.mem_filter.mp (hsecs ▸ hs)
  have hy0 : (m.sec s).secsym = some y := (foldl_migrateSection_sec secs m s).2.2 y (hm1 ▸ hy)
  exact hsyms ▸ List.mem_filter.mpr ⟨hsec s hs0 y hy0, (hm1 ▸ foldl_migrateSection secs m s (.inl hs)) hrela y hy⟩

/-- 含めた `.text.f`（セクション 0）と `.data`（セクション 2）、含めない `.text.g`（セクション 1）。シンボルは
含めた `f`、`g`、`.text.f` と、含めない `.text.g`、`.data` のセクションのシンボル。`g` のセクションと `.data` の
セクションのシンボルは含めない。 -/
def migrateExample : Mem := Mem.ofLists
  [{ name := ".text.f", secsym := some 2, included := true },
   { name := ".text.g", secsym := some 3 },
   { name := ".data", secsym := some 4, included := true }]
  [{ name := "f", type := STT_FUNC, sec := some 0, included := true },
   { name := "g", type := STT_FUNC, sec := some 1, included := true },
   { name := ".text.f", type := STT_SECTION, sec := some 0, included := true },
   { name := ".text.g", type := STT_SECTION, sec := some 1 },
   { name := ".data", type := STT_SECTION, sec := some 2 }]

/-- `migrateExample` の patched のモデル。 -/
def migrateElf : Elf := { sections := [0, 1, 2], symbols := [0, 1, 2, 3, 4] }

theorem migrate_example_links_closed :
    LinksClosed (xspliceMigrateIncludedElements migrateExample migrateElf).1
      (xspliceMigrateIncludedElements migrateExample migrateElf).2.1 :=
  @migrate_included_links_closed migrateExample migrateElf (by decide) (by decide)

example : (xspliceMigrateIncludedElements migrateExample migrateElf).2.1 =
      { sections := [0, 2], symbols := [0, 1, 2] } ∧
    ((xspliceMigrateIncludedElements migrateExample migrateElf).1.sym 1).sec = none ∧
    ((xspliceMigrateIncludedElements migrateExample migrateElf).1.sec 2).secsym = none := by
  decide

/-! ## シンボルの並べ替え

`xsplice_reorder_symbols` は五回の `xsplice_migrate_symbols` で、シンボルを五つの組に順に振り分ける。
一回の移動は、リストを条件に合うものと合わないものに、それぞれの順序を保って分ける。 -/

/-- シンボルの入る組：空の名前、`STT_FILE`、局所的な関数、ほかの局所的なシンボル、残り。前の組に入るものは
後ろの組では数えない。 -/
def symbolBucket (y : Symbol) : Nat :=
  if isNullSym y then 0 else if isFileSym y then 1 else if isLocalFuncSym y then 2
  else if isLocalSym y then 3 else 4

/-- `l` のうち、組 `i` に入るシンボルを、順序を保って取り出したもの。 -/
def bucketFilter (m : Mem) (l : List SymRef) (i : Nat) : List SymRef :=
  l.filter fun p => symbolBucket (m.sym p) == i

theorem xspliceMigrateSymbols_some (m : Mem) (f : Symbol → Bool) :
    ∀ (src dst : List SymRef), xspliceMigrateSymbols m (some f) src dst =
      (src.filter fun p => !f (m.sym p), dst ++ src.filter fun p => f (m.sym p))
  | [], dst => by simp [xspliceMigrateSymbols]
  | p :: src, dst => by
    cases hf : f (m.sym p) <;>
      simp [xspliceMigrateSymbols, hf, xspliceMigrateSymbols_some m f src]

theorem xspliceMigrateSymbols_none (m : Mem) :
    ∀ (src dst : List SymRef), xspliceMigrateSymbols m none src dst = ([], dst ++ src)
  | [], dst => by simp [xspliceMigrateSymbols]
  | p :: src, dst => by simp [xspliceMigrateSymbols, xspliceMigrateSymbols_none m src]

theorem xspliceMigrateSymbols_perm (m : Mem) (select : Option (Symbol → Bool)) (src dst : List SymRef) :
    ((xspliceMigrateSymbols m select src dst).2 ++ (xspliceMigrateSymbols m select src dst).1).Perm (dst ++ src) := by
  cases select with
  | none => simp [xspliceMigrateSymbols_none]
  | some f =>
    rw [xspliceMigrateSymbols_some, List.append_assoc]
    exact (List.filter_append_perm _ src).append_left dst

theorem isLocalSym_of_symbolBucket_lt {y : Symbol} (h : symbolBucket y < 4)
    (hloc : (isNullSym y || isFileSym y) = true → isLocalSym y = true) : isLocalSym y = true := by
  unfold symbolBucket at h
  split_ifs at h with h0 h1 h2 h3 <;> simp_all [isLocalFuncSym, isLocalSym]

theorem isLocalSym_of_symbolBucket_eq_four {y : Symbol} (h : (symbolBucket y == 4) = true) : isLocalSym y = false := by
  unfold symbolBucket at h
  split_ifs at h with h0 h1 h2 h3 <;> simp_all

/-- `xsplice_reorder_symbols` は、シンボルの列を並べ替えるだけである。 -/
theorem reorderSymbols_perm (m : Mem) (kelf : Elf) : (xspliceReorderSymbols m kelf).symbols.Perm kelf.symbols := by
  have h := (xspliceMigrateSymbols_perm m none _ _).trans <|
    (xspliceMigrateSymbols_perm m (some isLocalSym) _ _).trans <|
    (xspliceMigrateSymbols_perm m (some isLocalFuncSym) _ _).trans <|
    (xspliceMigrateSymbols_perm m (some isFileSym) _ _).trans <|
    xspliceMigrateSymbols_perm m (some isNullSym) kelf.symbols []
  simpa [xspliceReorderSymbols, xspliceMigrateSymbols_none] using h

/-- `xsplice_reorder_symbols` は五つの組の安定な振り分けである：結果は元のリストの並べ替えで、組 0 から 4 を
順に、それぞれの組の中では元の順序のまま並べたものに等しい。したがって、空の名前と `STT_FILE` のシンボルが
すべて局所的なら、局所的なシンボルはどれも、局所的でないシンボルより前にある。 -/
theorem reorder_symbols_stable_buckets (m : Mem) (kelf : Elf) :
    (xspliceReorderSymbols m kelf).symbols.Perm kelf.symbols ∧
    (xspliceReorderSymbols m kelf).symbols =
      bucketFilter m kelf.symbols 0 ++ bucketFilter m kelf.symbols 1 ++ bucketFilter m kelf.symbols 2 ++
        bucketFilter m kelf.symbols 3 ++ bucketFilter m kelf.symbols 4 ∧
    ((∀ p ∈ kelf.symbols, (isNullSym (m.sym p) || isFileSym (m.sym p)) = true → isLocalSym (m.sym p) = true) →
      ∃ locals others, (xspliceReorderSymbols m kelf).symbols = locals ++ others ∧
        (∀ p ∈ locals, isLocalSym (m.sym p) = true) ∧ ∀ p ∈ others, isLocalSym (m.sym p) = false) := by
  have hbuckets : (xspliceReorderSymbols m kelf).symbols =
      bucketFilter m kelf.symbols 0 ++ bucketFilter m kelf.symbols 1 ++ bucketFilter m kelf.symbols 2 ++
        bucketFilter m kelf.symbols 3 ++ bucketFilter m kelf.symbols 4 := by
    simp only [xspliceReorderSymbols, xspliceMigrateSymbols_some, xspliceMigrateSymbols_none, List.filter_filter,
      List.nil_append, List.append_nil, bucketFilter]
    congr 1; congr 1; congr 1; congr 1
    all_goals
      refine List.filter_congr fun p _ => ?_
      simp only [symbolBucket]
      generalize isNullSym (m.sym p) = a; generalize isFileSym (m.sym p) = b
      generalize isLocalFuncSym (m.sym p) = c; generalize isLocalSym (m.sym p) = d
      revert a b c d; decide
  refine ⟨reorderSymbols_perm m kelf, hbuckets, fun hloc => ⟨_, _, hbuckets, fun p hp => ?_, fun p hp => ?_⟩⟩
  · -- 組 0 から 3 は局所的なシンボルだけを持つ
    simp only [List.mem_append, bucketFilter, List.mem_filter, beq_iff_eq] at hp
    obtain ⟨hmem, hlt⟩ : p ∈ kelf.symbols ∧ symbolBucket (m.sym p) < 4 := by
      rcases hp with (((h | h) | h) | h) <;> exact ⟨h.1, by omega⟩
    exact isLocalSym_of_symbolBucket_lt hlt (hloc p hmem)
  · exact isLocalSym_of_symbolBucket_eq_four (List.mem_filter.mp hp).2

/-! ## 番号を振り直す

`xsplice_reindex_elements` の二つのループは、どちらもリストの要素に順に番号を振る。一周が振った番号を
ほかの周が保てば、重複のないリストの位置 `j` の要素は、始めの番号に `j` を足した番号を持つ。 -/

section Numbering

variable {σ : Type} {step : σ × Nat → Nat → σ × Nat} {P : σ → Nat → Nat → Prop}

theorem foldl_numbering_not_mem (hsnd : ∀ s i p, (step (s, i) p).2 = i + 1)
    (hother : ∀ s i p q j, q ≠ p → P s q j → P (step (s, i) p).1 q j) {q j : Nat} :
    ∀ (L : List Nat) (s : σ) (i : Nat), q ∉ L → P s q j → P (L.foldl step (s, i)).1 q j
  | [], _, _, _, h => h
  | p :: L, s, i, hq, h => by
    have hpair : step (s, i) p = ((step (s, i) p).1, i + 1) := Prod.ext rfl (hsnd s i p)
    rw [List.foldl_cons, hpair]
    exact foldl_numbering_not_mem hsnd hother L _ _ (fun h' => hq (List.mem_cons_of_mem p h'))
      (hother s i p q j (fun h' => hq (h' ▸ List.mem_cons_self p L)) h)

/-- 重複のないリストの位置 `j` の要素は、番号 `i + j` を持つ。 -/
theorem foldl_numbering (hsnd : ∀ s i p, (step (s, i) p).2 = i + 1) (hself : ∀ s i p, P (step (s, i) p).1 p i)
    (hother : ∀ s i p q j, q ≠ p → P s q j → P (step (s, i) p).1 q j) :
    ∀ (L : List Nat) (s : σ) (i : Nat), L.Nodup →
      ∀ j (h : j < L.length), P (L.foldl step (s, i)).1 (L.get ⟨j, h⟩) (i + j)
  | [], _, _, _, _, h => absurd h (Nat.not_lt_zero _)
  | p :: L, s, i, hnd, j, h => by
    have hpair : step (s, i) p = ((step (s, i) p).1, i + 1) := Prod.ext rfl (hsnd s i p)
    rw [List.foldl_cons, hpair]
    cases j with
    | zero => exact foldl_numbering_not_mem hsnd hother L _ _ (List.nodup_cons.mp hnd).1 (hself s i p)
    | succ j =>
      have := foldl_numbering hsnd hself hother L (step (s, i) p).1 (i + 1) (List.nodup_cons.mp hnd).2 j
        (Nat.lt_of_succ_lt_succ h)
      rwa [Nat.add_right_comm, Nat.add_assoc] at this

end Numbering

@[simp] theorem reindexSection_snd (mi : Mem × Nat) (p : SecRef) : (reindexSection mi p).2 = mi.2 + 1 := rfl

@[simp] theorem reindexSymbol_snd (mi : Mem × Nat) (p : SymRef) : (reindexSymbol mi p).2 = mi.2 + 1 := rfl

@[simp] theorem reindexSymbol_sec (mi : Mem × Nat) (p : SymRef) : (reindexSymbol mi p).1.sec = mi.1.sec := rfl

theorem foldl_reindexSymbol_sec : ∀ (L : List SymRef) (m : Mem) (i : Nat), (L.foldl reindexSymbol (m, i)).1.sec = m.sec
  | [], _, _ => rfl
  | p :: L, m, i => foldl_reindexSymbol_sec L (reindexSymbol (m, i) p).1 (i + 1)

/-- シンボル `y` は番号 `i` を持ち、セクションがあれば `st_shndx` はそのセクションの番号である。 -/
def SymbolIndexed (m : Mem) (y i : Nat) : Prop :=
  (m.sym y).index = i ∧ ∀ s ∈ (m.sym y).sec, (m.sym y).sym.stShndx = (m.sec s).index

theorem reindexSymbol_self (m : Mem) (i p : Nat) : SymbolIndexed (reindexSymbol (m, i) p).1 p i := by
  refine ⟨by simp [reindexSymbol], fun s hs => ?_⟩
  simp only [reindexSymbol, Mem.modSym_sym_self] at hs ⊢
  rw [Option.mem_def] at hs
  simp [hs]

theorem reindexSymbol_other (m : Mem) (i p q j : Nat) (hq : q ≠ p) (h : SymbolIndexed m q j) :
    SymbolIndexed (reindexSymbol (m, i) p).1 q j := by
  simpa [SymbolIndexed, reindexSymbol, hq] using h

theorem reindexElements_secIndex {m : Mem} {kelf : Elf} (hnd : kelf.sections.Nodup) :
    ∀ j s, kelf.sections[j]? = some s → ((xspliceReindexElements m kelf).sec s).index = j + 1 := by
  have hS := @foldl_numbering Mem reindexSection (fun m p i => (m.sec p).index = i) (fun _ _ _ => rfl)
    (fun m i p => by simp [reindexSection]) (fun m i p q j hq h => by simpa [reindexSection, hq] using h)
    kelf.sections m 1 hnd
  intro j s hj
  obtain ⟨hlt, rfl⟩ := List.getElem?_eq_some_iff.mp hj
  simp only [xspliceReindexElements, foldl_reindexSymbol_sec]
  exact (hS j hlt).trans (Nat.add_comm 1 j)

theorem reindexElements_symIndexed {m : Mem} {kelf : Elf} (hnd : kelf.symbols.Nodup) :
    ∀ j (h : j < kelf.symbols.length), SymbolIndexed (xspliceReindexElements m kelf) (kelf.symbols.get ⟨j, h⟩) j := by
  intro j h
  simpa using @foldl_numbering Mem reindexSymbol SymbolIndexed (fun _ _ _ => rfl) reindexSymbol_self
    reindexSymbol_other kelf.symbols (kelf.sections.foldl reindexSection (m, 1)).1 0 hnd j h

theorem foldl_reindexSection_sym : ∀ (L : List SecRef) (m : Mem) (i : Nat), (L.foldl reindexSection (m, i)).1.sym = m.sym
  | [], _, _ => rfl
  | _ :: L, _, i => foldl_reindexSection_sym L _ (i + 1)

theorem foldl_reindexSymbol_sym (y : SymRef) : ∀ (L : List SymRef) (m : Mem) (i : Nat),
    ∃ idx e, (L.foldl reindexSymbol (m, i)).1.sym y = { m.sym y with index := idx, sym := e }
  | [], _, _ => ⟨_, _, rfl⟩
  | p :: L, m, i => by
    obtain ⟨idx, e, h⟩ := foldl_reindexSymbol_sym y L (reindexSymbol (m, i) p).1 (i + 1)
    refine ⟨idx, e, h.trans ?_⟩
    by_cases hy : y = p
    · subst hy; simp [reindexSymbol]
    · simp [reindexSymbol, hy]

/-- `xsplice_reindex_elements` は、シンボルの番号と `st_shndx` のほかは、シンボルを変えない。 -/
theorem reindexElements_sym (m : Mem) (kelf : Elf) (y : SymRef) :
    ∃ idx e, (xspliceReindexElements m kelf).sym y = { m.sym y with index := idx, sym := e } := by
  obtain ⟨idx, e, h⟩ := foldl_reindexSymbol_sym y kelf.symbols (kelf.sections.foldl reindexSection (m, 1)).1 0
  exact ⟨idx, e, h.trans (by rw [foldl_reindexSection_sym])⟩

end XspliceDiff

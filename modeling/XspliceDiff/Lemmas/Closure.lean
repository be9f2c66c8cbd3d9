import XspliceDiff.Lemmas.Include

/-!
# 含める要素は閉包である（§4.4）

`xsplice_include_changed_functions` が含める要素は、§4.4 の規則で閉じた最小の集まりに等しい。規則は、含めた
シンボル `y` のセクション `s` が、`y` がセクションのシンボルか `SAME` でないなら、`s`、`s` のセクションのシンボル、
`s` のリロケーションのセクション `r`、`r` のリロケーションの参照先を含めることである。

`xsplice_include_symbol` は、セクションの `include` の印を、深さ優先の探索の訪れた印としても使う。印の付いた
セクションの展開は、そのセクションの再帰が終わるまで済まないので、不変条件は展開の途中のセクションの集まりを
除いて述べる。前もって含めてあったセクションは展開されないので、それらは展開済みでなければならない。
-/

namespace XspliceDiff

/-! ## 閉包 -/

/-- 含める要素：シンボルかセクション。 -/
inductive Element where
  | sym (y : SymRef)
  | sec (s : SecRef)

/-- 規則の前提：シンボル `y` はセクション `s` にあり、セクションのシンボルか、`SAME` でない。 -/
def Pulls (m : Mem) (y : SymRef) (s : SecRef) : Prop :=
  (m.sym y).sec = some s ∧ ((m.sym y).type = STT_SECTION ∨ (m.sym y).status ≠ .same)

/-- §4.4 の閉包：前もって含めてあった要素、`kelf` の `CHANGED` の関数と `STT_FILE` のシンボルを含み、規則で
閉じた最小の集まり。リストの順序は現れない。 -/
inductive InClosure (m : Mem) (kelf : Elf) : Element → Prop where
  | priorSym {y : SymRef} : (m.sym y).included = true → InClosure m kelf (.sym y)
  | priorSec {s : SecRef} : (m.sec s).included = true → InClosure m kelf (.sec s)
  | changed {y : SymRef} : y ∈ kelf.symbols → isChangedFunction (m.sym y) = true → InClosure m kelf (.sym y)
  | file {y : SymRef} : y ∈ kelf.symbols → isFileSymbol (m.sym y) = true → InClosure m kelf (.sym y)
  | sec {y : SymRef} {s : SecRef} : InClosure m kelf (.sym y) → Pulls m y s → InClosure m kelf (.sec s)
  | secsym {y z : SymRef} {s : SecRef} : InClosure m kelf (.sym y) → Pulls m y s → (m.sec s).secsym = some z →
      InClosure m kelf (.sym z)
  | rela {y : SymRef} {s r : SecRef} : InClosure m kelf (.sym y) → Pulls m y s → (m.sec s).rela = some r →
      InClosure m kelf (.sec r)
  | target {y : SymRef} {s r : SecRef} {rela : Rela} : InClosure m kelf (.sym y) → Pulls m y s →
      (m.sec s).rela = some r → rela ∈ (m.sec r).relas → InClosure m kelf (.sym rela.sym)

/-- ローダが作るオブジェクトのリンク：セクションのシンボルはそのセクションにあり、`STT_FILE` のシンボルは
セクションを持たず、リロケーションのセクションは、セクションのシンボルもリロケーションのセクションも持たない。 -/
structure LoaderLinks (m : Mem) (kelf : Elf) : Prop where
  secsymSec : ∀ s ∈ kelf.sections, ∀ z ∈ (m.sec s).secsym, (m.sym z).sec = some s
  fileNoSec : ∀ y ∈ kelf.symbols, isFileSymbol (m.sym y) = true → (m.sym y).sec = none
  relaBare : ∀ s ∈ kelf.sections, ∀ r ∈ (m.sec s).rela, (m.sec r).secsym = none ∧ (m.sec r).rela = none

instance (m : Mem) (kelf : Elf) : Decidable (LoaderLinks m kelf) :=
  decidable_of_iff ((∀ s ∈ kelf.sections, ∀ z ∈ (m.sec s).secsym, (m.sym z).sec = some s) ∧
      (∀ y ∈ kelf.symbols, isFileSymbol (m.sym y) = true → (m.sym y).sec = none) ∧
      ∀ s ∈ kelf.sections, ∀ r ∈ (m.sec s).rela, (m.sec r).secsym = none ∧ (m.sec r).rela = none)
    ⟨fun h => ⟨h.1, h.2.1, h.2.2⟩, fun h => ⟨h.1, h.2, h.3⟩⟩

/-- セクション `s` の展開が済んでいる：セクションのシンボル、リロケーションのセクションと、その参照先を含めてある。 -/
def Done (m : Mem) (s : SecRef) : Prop :=
  (∀ z ∈ (m.sec s).secsym, (m.sym z).included = true) ∧
  ∀ r ∈ (m.sec s).rela, (m.sec r).included = true ∧ ∀ rela ∈ (m.sec r).relas, (m.sym rela.sym).included = true

/-- 含めた要素が規則で閉じている。ただし、集まり `P` のセクション（展開の途中のもの）の展開は問わない。 -/
structure ClosedExcept (m : Mem) (P : SecRef → Prop) : Prop where
  sec : ∀ s, (m.sec s).included = true → ¬P s → Done m s
  sym : ∀ y s, (m.sym y).included = true → Pulls m y s → (m.sec s).included = true

/-- 要素に `include` の印が付いている。 -/
def Marked (m : Mem) : Element → Prop
  | .sym y => (m.sym y).included = true
  | .sec s => (m.sec s).included = true

/-! ## 印を増やすだけの書き換えで変わらないもの -/

section Grows

variable {m m' : Mem}

theorem Mem.Grows.pulls_iff (h : m.Grows m') (y : SymRef) (s : SecRef) : Pulls m' y s ↔ Pulls m y s := by
  simp only [Pulls, h.symSec, h.symType, h.symStatus]

theorem Done.grows (h : m.Grows m') {s : SecRef} (hd : Done m s) : Done m' s := by
  obtain ⟨hz, hr⟩ := hd
  refine ⟨fun z hz' => h.symMono z (hz z (h.secsym s ▸ hz')), fun r hr' => ?_⟩
  obtain ⟨hri, ht⟩ := hr r (h.rela s ▸ hr')
  exact ⟨h.secMono r hri, fun rela hrela => h.symMono _ (ht rela (h.relas r ▸ hrela))⟩

end Grows

theorem Mem.Grows.foldlM {β : Type} {f : Mem → β → Except Abort Mem} (hf : ∀ m x m', f m x = .ok m' → m.Grows m') :
    ∀ (l : List β) (m m' : Mem), l.foldlM f m = .ok m' → m.Grows m'
  | [], m, _, h => Except.ok.inj h ▸ .refl m
  | x :: l, m, m', h => by
    obtain ⟨m1, h1, h2⟩ := bind_eq_ok.mp h
    exact (hf m x m1 h1).trans (Mem.Grows.foldlM hf l m1 m' h2)

/-- `xsplice_include_symbol` が成功すれば、印を増やすだけで、`p` に印を付ける（燃料は何でもよい）。 -/
theorem includeSymbol_grows :
    ∀ {fuel : Nat} {m m' : Mem} {p : SymRef}, xspliceIncludeSymbol fuel m p = .ok m' →
      m.Grows m' ∧ (m'.sym p).included = true
  | 0, _, _, _, h => nomatch h
  | fuel + 1, m, m', p, h => by
    have hp1 := includeSym_sym_self_included m p
    by_cases he : ∃ s, Expands m p s
    · obtain ⟨s, he⟩ := he
      have hg2 := (Mem.Grows.includeSec _ s).trans (includeSectionOf_grows (m.includeSym p) s p)
      rw [includeSymbol_expand he] at h
      split at h
      · cases h; exact ⟨(Mem.Grows.includeSym m p).trans hg2, hg2.symMono p hp1⟩
      · next r _ =>
        have hg3 := Mem.Grows.includeSec (includeSectionOf (m.includeSym p) s p) r
        have := hg2.trans (hg3.trans (Mem.Grows.foldlM (fun _ _ _ h => (includeSymbol_grows h).1) _ _ _ h))
        exact ⟨(Mem.Grows.includeSym m p).trans this, this.symMono p hp1⟩
    · push_neg at he
      rw [includeSymbol_stop he] at h
      cases h
      exact ⟨.includeSym m p, hp1⟩

/-! ## 探索の不変条件 -/

/-- 探索の不変条件：`m` は `m0` の印を増やしただけで、印の付いた要素はどれも閉包にあり、`P` のセクション
（展開の途中のもの）を除いて規則で閉じている。`P` のセクションには印が付いている。 -/
structure SearchInv (m0 : Mem) (kelf : Elf) (P : SecRef → Prop) (m : Mem) : Prop where
  grows : m0.Grows m
  sound : ∀ e, Marked m e → InClosure m0 kelf e
  closed : ClosedExcept m P
  pending : ∀ s, P s → (m.sec s).included = true

section Search

variable {m0 : Mem} {kelf : Elf} {P P' : SecRef → Prop} {m m' : Mem}

/-- 印を増やしたとき、新しく印を付けた要素が閉包にあり、新しく印を付けたセクションと展開を終えたセクションが
展開済みか展開の途中で、新しく印を付けたシンボルが前提を満たすセクションに印が付いていれば、不変条件は保たれる。 -/
theorem SearchInv.extend (hinv : SearchInv m0 kelf P m) (hg : m.Grows m')
    (hsound : ∀ e, Marked m' e → ¬Marked m e → InClosure m0 kelf e)
    (hsec : ∀ s, (m'.sec s).included = true → ¬(m.sec s).included = true → ¬P' s → Done m' s)
    (hsym : ∀ y s, (m'.sym y).included = true → ¬(m.sym y).included = true → Pulls m0 y s →
      (m'.sec s).included = true)
    (hfinish : ∀ s, P s → ¬P' s → Done m' s) (hpending : ∀ s, P' s → (m'.sec s).included = true) :
    SearchInv m0 kelf P' m' where
  grows := hinv.grows.trans hg
  sound e he := by
    by_cases hold : Marked m e
    exacts [hinv.sound e hold, hsound e he hold]
  closed := by
    refine ⟨fun s hs hP' => ?_, fun y s hy hp => ?_⟩
    · by_cases hold : (m.sec s).included = true
      · by_cases hP : P s
        exacts [hfinish s hP hP', (hinv.closed.sec s hold hP).grows hg]
      · exact hsec s hs hold hP'
    · have hp0 := ((hinv.grows.trans hg).pulls_iff y s).mp hp
      by_cases hold : (m.sym y).included = true
      · exact hg.secMono s (hinv.closed.sym y s hold ((hinv.grows.pulls_iff y s).mpr hp0))
      · exact hsym y s hy hold hp0
  pending := hpending

end Search

/-! ## 一段の書き換え -/

theorem includeSectionOf_sec (m : Mem) (s : SecRef) (p : SymRef) :
    (includeSectionOf m s p).sec = (m.includeSec s).sec := by
  dsimp only [includeSectionOf]
  split
  · split_ifs <;> rfl
  · rfl

theorem includeSectionOf_sym_included {m : Mem} {s : SecRef} {p y : SymRef}
    (h : ((includeSectionOf m s p).sym y).included = true) : (m.sym y).included = true ∨ (m.sec s).secsym = some y := by
  dsimp only [includeSectionOf] at h
  rw [← (Mem.Grows.includeSec m s).secsym s]
  split at h
  · next z hz =>
    split_ifs at h
    · rw [Mem.includeSym_sym_included, Bool.or_eq_true, beq_iff_eq] at h
      rcases h with rfl | h
      exacts [.inr hz, .inl h]
    · exact .inl h
  · exact .inl h

theorem includeSectionOf_secsym_included {m : Mem} {s : SecRef} {p z : SymRef} (hz : (m.sec s).secsym = some z) :
    ((includeSectionOf (m.includeSym p) s p).sym z).included = true := by
  have hz' : (((m.includeSym p).includeSec s).sec s).secsym = some z := by
    rw [(Mem.Grows.includeSec _ s).secsym s]; exact hz
  dsimp only [includeSectionOf]
  rw [hz']
  dsimp only
  split_ifs with hzp
  · simp [Mem.includeSym_sym_included]
  · simp [Mem.includeSym_sym_included, not_not.mp hzp]

/-! ## 探索の一段 -/

section Steps

variable {m0 : Mem} {kelf : Elf} {P : SecRef → Prop} {m : Mem} {p : SymRef} {s : SecRef}

theorem SearchInv.stop (hinv : SearchInv m0 kelf P m) (hp : InClosure m0 kelf (.sym p)) (hne : ∀ s, ¬Expands m p s) :
    SearchInv m0 kelf P (m.includeSym p) := by
  refine hinv.extend (.includeSym m p) (fun e he hold => ?_) (fun s hs hold => absurd hs hold)
    (fun y s hy hold hps => ?_) (fun s h1 h2 => absurd h1 h2) hinv.pending
  · cases e with
    | sym y =>
      simp only [Marked, Mem.includeSym_sym_included, Bool.or_eq_true, beq_iff_eq] at he hold
      exact (he.resolve_right hold) ▸ hp
    | sec s => exact absurd he hold
  · simp only [Mem.includeSym_sym_included, Bool.or_eq_true, beq_iff_eq] at hy
    obtain rfl := hy.resolve_right hold
    have hps' := (hinv.grows.pulls_iff y s).mpr hps
    by_contra hs
    exact hne s ⟨hps'.1, Bool.eq_false_iff.mpr hs, hps'.2⟩

theorem SearchInv.expand (hinv : SearchInv m0 kelf P m) (hl : LoaderLinks m0 kelf) (hsS : s ∈ kelf.sections)
    (hp : InClosure m0 kelf (.sym p)) (he : Expands m p s) :
    SearchInv m0 kelf (fun x => P x ∨ x = s) (includeSectionOf (m.includeSym p) s p) := by
  have hp0 : Pulls m0 p s := (hinv.grows.pulls_iff p s).mp ⟨he.1, he.2.2⟩
  have hsec : ∀ x, ((includeSectionOf (m.includeSym p) s p).sec x).included = true ↔
      x = s ∨ (m.sec x).included = true := fun x => by
    simp [includeSectionOf_sec, Mem.includeSec_sec_included]
  have hsym : ∀ y, ((includeSectionOf (m.includeSym p) s p).sym y).included = true → ¬(m.sym y).included = true →
      y = p ∨ (m0.sec s).secsym = some y := fun y hy hold => by
    rcases includeSectionOf_sym_included hy with hy | hy
    · simp only [Mem.includeSym_sym_included, Bool.or_eq_true, beq_iff_eq] at hy
      exact .inl (hy.resolve_right hold)
    · exact .inr (by rw [← hinv.grows.secsym s]; simpa using hy)
  refine hinv.extend ((Mem.Grows.includeSym m p).trans ((Mem.Grows.includeSec _ s).trans (includeSectionOf_grows _ s p)))
    (fun e he hold => ?_) (fun x hx hold hP => ?_) (fun y x hy hold hpx => ?_) (fun x h1 h2 => absurd (.inl h1) h2)
    (fun x hx => ?_)
  · cases e with
    | sym y =>
      rcases hsym y he hold with rfl | hz
      exacts [hp, .secsym hp hp0 hz]
    | sec x =>
      obtain rfl := ((hsec x).mp he).resolve_right hold
      exact .sec hp hp0
  · exact absurd (.inr (((hsec x).mp hx).resolve_right hold)) hP
  · rcases hsym y hy hold with rfl | hz
    · obtain rfl : x = s := Option.some.inj (hpx.1.symm.trans hp0.1)
      exact (hsec _).mpr (.inl rfl)
    · obtain rfl : x = s := Option.some.inj (hpx.1.symm.trans (hl.secsymSec s hsS y hz))
      exact (hsec _).mpr (.inl rfl)
  · rcases hx with hx | rfl
    exacts [(hsec x).mpr (.inr (hinv.pending x hx)), (hsec _).mpr (.inl rfl)]

theorem SearchInv.includeRela {r : SecRef} (hinv : SearchInv m0 kelf P m) (hl : LoaderLinks m0 kelf)
    (hsS : s ∈ kelf.sections) (hr : (m0.sec s).rela = some r) (hrc : InClosure m0 kelf (.sec r)) :
    SearchInv m0 kelf P (m.includeSec r) := by
  have hnew : ∀ x, ((m.includeSec r).sec x).included = true → ¬(m.sec x).included = true → x = r := fun x hx hold => by
    simp only [Mem.includeSec_sec_included, Bool.or_eq_true, beq_iff_eq] at hx
    exact hx.resolve_right hold
  obtain ⟨hss, hrr⟩ := hl.relaBare s hsS r hr
  have hg := hinv.grows.trans (Mem.Grows.includeSec m r)
  refine hinv.extend (.includeSec m r) (fun e he hold => ?_) (fun x hx hold _ => ?_) (fun y x hy hold _ => absurd hy hold)
    (fun x h1 h2 => absurd h1 h2) (fun x hx => (Mem.Grows.includeSec m r).secMono x (hinv.pending x hx))
  · cases e with
    | sym y => exact absurd he hold
    | sec x => exact hnew x he hold ▸ hrc
  · obtain rfl := hnew x hx hold
    exact ⟨fun z hz => (by rw [hg.secsym, hss] at hz; cases hz), fun r' hr' => (by rw [hg.rela, hrr] at hr'; cases hr')⟩

theorem SearchInv.finish (hinv : SearchInv m0 kelf (fun x => P x ∨ x = s) m) (hd : Done m s) : SearchInv m0 kelf P m :=
  hinv.extend (.refl m) (fun _ he hold => absurd he hold) (fun _ hs hold => absurd hs hold)
    (fun _ _ hy hold => absurd hy hold) (fun _ h1 h2 => (h1.resolve_left h2) ▸ hd)
    (fun x hx => hinv.pending x (.inl hx))

end Steps

/-! ## 探索全体 -/

theorem foldlM_searchInv {m0 : Mem} {kelf : Elf} {fuel : Nat}
    (ih : ∀ {P : SecRef → Prop} {m m' : Mem} {p : SymRef}, SearchInv m0 kelf P m → p ∈ kelf.symbols →
      InClosure m0 kelf (.sym p) → xspliceIncludeSymbol fuel m p = .ok m' → SearchInv m0 kelf P m') :
    ∀ {P : SecRef → Prop} (relas : List Rela) {m m' : Mem}, SearchInv m0 kelf P m →
      (∀ rela ∈ relas, rela.sym ∈ kelf.symbols ∧ InClosure m0 kelf (.sym rela.sym)) →
      relas.foldlM (fun m rela => xspliceIncludeSymbol fuel m rela.sym) m = .ok m' →
      SearchInv m0 kelf P m' ∧ ∀ rela ∈ relas, (m'.sym rela.sym).included = true
  | _, [], _, _, hinv, _, h => by cases h; exact ⟨hinv, fun _ h => nomatch h⟩
  | _, rela :: relas, m, m', hinv, hrelas, h => by
    obtain ⟨m1, h1, h2⟩ := bind_eq_ok.mp h
    obtain ⟨hY, hcl⟩ := hrelas rela (List.mem_cons_self _ _)
    obtain ⟨hinv', hin⟩ := foldlM_searchInv ih relas (ih hinv hY hcl h1)
      (fun r hr => hrelas r (List.mem_cons_of_mem _ hr)) h2
    refine ⟨hinv', fun r hr => ?_⟩
    rcases List.mem_cons.mp hr with rfl | hr
    · exact (Mem.Grows.foldlM (fun _ _ _ h => (includeSymbol_grows h).1) _ _ _ h2).symMono _
        (includeSymbol_grows h1).2
    · exact hin r hr

section Run

variable {m0 : Mem} {kelf : Elf} (hc : RelocClosed m0 kelf.sections kelf.symbols) (hl : LoaderLinks m0 kelf)
include hc hl

/-- `xsplice_include_symbol` は探索の不変条件を保つ：閉包にある `p` から始めれば、印を付ける要素はどれも閉包にあり、
展開を始めたセクションは、再帰から戻る前に展開を終える。 -/
theorem includeSymbol_searchInv :
    ∀ {fuel : Nat} {P : SecRef → Prop} {m m' : Mem} {p : SymRef}, SearchInv m0 kelf P m → p ∈ kelf.symbols →
      InClosure m0 kelf (.sym p) → xspliceIncludeSymbol fuel m p = .ok m' → SearchInv m0 kelf P m'
  | 0, _, _, _, _, _, _, _, h => nomatch h
  | fuel + 1, P, m, m', p, hinv, hpY, hp, h => by
    by_cases he : ∃ s, Expands m p s
    · obtain ⟨s, he⟩ := he
      have hp0 : Pulls m0 p s := (hinv.grows.pulls_iff p s).mp ⟨he.1, he.2.2⟩
      have hsS : s ∈ kelf.sections := hc.symSec p hpY s hp0.1
      have h2 := hinv.expand hl hsS hp he
      have hz : ∀ z ∈ (m0.sec s).secsym, ((includeSectionOf (m.includeSym p) s p).sym z).included = true :=
        fun z hz => includeSectionOf_secsym_included (by rw [hinv.grows.secsym]; exact hz)
      rw [includeSymbol_expand he, hinv.grows.rela] at h
      split at h
      · next hr =>
        cases h
        exact h2.finish ⟨fun z hz' => hz z (h2.grows.secsym s ▸ hz'), fun r hr' => by rw [h2.grows.rela, hr] at hr'; cases hr'⟩
      · next r hr =>
        have h3 := h2.includeRela hl hsS hr (.rela hp hp0 hr)
        rw [hinv.grows.relas] at h
        obtain ⟨h4, htargets⟩ := foldlM_searchInv includeSymbol_searchInv _ h3
          (fun rela hrela => ⟨hc.targets s hsS r hr rela hrela, .target hp hp0 hr hrela⟩) h
        have hg4 := Mem.Grows.foldlM (fun _ _ _ h => (includeSymbol_grows h).1) _ _ _ h
        refine h4.finish ⟨fun z hz' => hg4.symMono z (hz z (h4.grows.secsym s ▸ hz')), fun r' hr' => ?_⟩
        obtain rfl : r' = r := by rw [h4.grows.rela, hr] at hr'; exact (Option.some.inj hr').symm
        exact ⟨hg4.secMono r' (by simp [Mem.includeSec_sec_included]),
          fun rela hrela => htargets rela (h4.grows.relas r' ▸ hrela)⟩
    · push_neg at he
      rw [includeSymbol_stop he] at h
      cases h
      exact hinv.stop hp he

/-- `xsplice_include_changed_functions` のループの一周も不変条件を保つ：`CHANGED` の関数は閉包の根で、
`STT_FILE` のシンボルはセクションを持たない。 -/
theorem includeChangedFunction_searchInv {fuel n n' : Nat} {m m' : Mem} {p : SymRef}
    (hinv : SearchInv m0 kelf (fun _ => False) m) (hp : p ∈ kelf.symbols)
    (h : includeChangedFunction fuel (m, n) p = .ok (m', n')) : SearchInv m0 kelf (fun _ => False) m' := by
  -- `STT_FILE` のシンボルに印を付ける後半
  have hfile : ∀ {m1 : Mem} {k : Nat}, SearchInv m0 kelf (fun _ => False) m1 →
      (if (m1.sym p).type = STT_FILE then pure (m1.includeSym p, k) else pure (m1, k)) = Except.ok (ε := Abort) (m', n') →
      SearchInv m0 kelf (fun _ => False) m' := fun {m1 k} hinv1 h => by
    split_ifs at h with hf
    · cases h
      have hf0 : isFileSymbol (m0.sym p) = true := by simpa [isFileSymbol, ← hinv1.grows.symType p] using hf
      have hsec : (m1.sym p).sec = none := by rw [hinv1.grows.symSec]; exact hl.fileNoSec p hp hf0
      exact hinv1.stop (.file hp hf0) fun s he => by have := he.1; rw [hsec] at this; cases this
    · cases h; exact hinv1
  simp only [includeChangedFunction] at h
  split_ifs at h with hcf
  · obtain ⟨m2, h2, h⟩ := bind_eq_ok.mp h
    have hch : isChangedFunction (m0.sym p) = true := by
      simpa [isChangedFunction, ← hinv.grows.symStatus p, ← hinv.grows.symType p] using hcf
    exact hfile (includeSymbol_searchInv hc hl hinv hp (.changed hp hch) h2) (by simpa only [pure_bind] using h)
  · exact hfile hinv (by simpa only [pure_bind] using h)

theorem foldlM_includeChangedFunction_searchInv {fuel : Nat} :
    ∀ (rest : List SymRef) {m m' : Mem} {n n' : Nat}, SearchInv m0 kelf (fun _ => False) m →
      (∀ p ∈ rest, p ∈ kelf.symbols) → rest.foldlM (includeChangedFunction fuel) (m, n) = .ok (m', n') →
      SearchInv m0 kelf (fun _ => False) m'
  | [], _, _, _, _, hinv, _, h => by cases h; exact hinv
  | p :: rest, _, _, _, _, hinv, hrest, h => by
    obtain ⟨⟨m1, n1⟩, h1, h2⟩ := bind_eq_ok.mp h
    exact foldlM_includeChangedFunction_searchInv rest
      (includeChangedFunction_searchInv hc hl hinv (hrest p (List.mem_cons_self _ _)) h1)
      (fun q hq => hrest q (List.mem_cons_of_mem _ hq)) h2

end Run

/-! ## 主定理 -/

/-- 前もって含めてあった要素が規則で閉じていて、オブジェクトのリストが閉じ、リンクがローダの作るとおりなら、
`xsplice_include_changed_functions` は止まり、印を付けた要素は閉包にちょうど等しい。閉包はリストの順序によらない。 -/
theorem include_changed_functions_closure {m : Mem} {kelf : Elf}
    (hc : RelocClosed m kelf.sections kelf.symbols) (hl : LoaderLinks m kelf)
    (hprior : ClosedExcept m fun _ => False) :
    ∃ m' n, xspliceIncludeChangedFunctions m kelf = .ok (m', n) ∧ ∀ e, Marked m' e ↔ InClosure m kelf e := by
  obtain ⟨m', n, h, hi⟩ := @foldlM_selectedIncluded isChangedFunction isFileSymbol (fun _ => rfl) (fun _ => rfl) _ _
    (fun m n _ hc hp => includeChangedFunction_ok n hc hp) kelf.symbols m 0 hc (fun _ h => h)
  have hinv0 : SearchInv m kelf (fun _ => False) m :=
    ⟨.refl m, fun e he => match e, he with
      | .sym _, he => .priorSym he
      | .sec _, he => .priorSec he, hprior, fun _ h => h.elim⟩
  have hinv := foldlM_includeChangedFunction_searchInv hc hl kelf.symbols hinv0 (fun _ h => h) h
  refine ⟨m', 0 + n, by rw [xspliceIncludeChangedFunctions, h], fun e => ⟨hinv.sound e, fun he => ?_⟩⟩
  have hsecInc : ∀ {y s}, (m'.sym y).included = true → Pulls m y s → (m'.sec s).included = true :=
    fun hy hps => hinv.closed.sym _ _ hy ((hinv.grows.pulls_iff _ _).mpr hps)
  induction he with
  | priorSym h => exact hinv.grows.symMono _ h
  | priorSec h => exact hinv.grows.secMono _ h
  | changed hy hch => exact hi.selected _ hy hch
  | file hy hf => exact hi.extraIncluded _ hy hf
  | sec _ hps ih => exact hsecInc ih hps
  | secsym _ hps hz ih =>
    exact (hinv.closed.sec _ (hsecInc ih hps) id).1 _ (by rw [hinv.grows.secsym]; exact hz)
  | rela _ hps hr ih =>
    exact ((hinv.closed.sec _ (hsecInc ih hps) id).2 _ (by rw [hinv.grows.rela]; exact hr)).1
  | target _ hps hr hrela ih =>
    exact ((hinv.closed.sec _ (hsecInc ih hps) id).2 _ (by rw [hinv.grows.rela]; exact hr)).2 _
      (by rw [hinv.grows.relas]; exact hrela)

theorem ofLists_sec_unmarked {secs : List Section} {syms : List Symbol} (h : ∀ x ∈ secs, x.included = false)
    (s : SecRef) : ((Mem.ofLists secs syms).sec s).included = false := by
  simp only [Mem.ofLists, List.getD_eq_getElem?_getD]
  cases hs : secs[s]? with
  | none => rfl
  | some x => exact h x (List.getElem?_mem hs)

theorem ofLists_sym_unmarked {secs : List Section} {syms : List Symbol} (h : ∀ y ∈ syms, y.included = false)
    (y : SymRef) : ((Mem.ofLists secs syms).sym y).included = false := by
  simp only [Mem.ofLists, List.getD_eq_getElem?_getD]
  cases hy : syms[y]? with
  | none => rfl
  | some x => exact h x (List.getElem?_mem hy)

theorem mutualCallExample_prior_closed : ClosedExcept mutualCallExample fun _ => False :=
  ⟨fun s hs => absurd hs (by rw [mutualCallExample, ofLists_sec_unmarked (by decide)]; decide),
   fun y _ hy => absurd hy (by rw [mutualCallExample, ofLists_sym_unmarked (by decide)]; decide)⟩

theorem mutual_call_example_closure :
    RelocClosed mutualCallExample mutualCallElf.sections mutualCallElf.symbols ∧
    LoaderLinks mutualCallExample mutualCallElf ∧ ClosedExcept mutualCallExample (fun _ => False) ∧
    ∃ m' n, xspliceIncludeChangedFunctions mutualCallExample mutualCallElf = .ok (m', n) ∧
      ∀ e, Marked m' e ↔ InClosure mutualCallExample mutualCallElf e :=
  ⟨by decide, by decide, mutualCallExample_prior_closed,
    include_changed_functions_closure (by decide) (by decide) mutualCallExample_prior_closed⟩

/-! ## 前もって含めたセクションの展開は済んでいなければならない -/

/-- `.text.f`（セクション 0）は前もって含めてあり、リロケーションのセクションを持たないが、そのセクションの
シンボル（シンボル 1）は含めていない。`f`（シンボル 0）は `.text.f` の `CHANGED` の関数。 -/
def priorSectionExample : Mem := Mem.ofLists
  [{ name := ".text.f", secsym := some 1, included := true }]
  [{ name := "f", type := STT_FUNC, sec := some 0, status := .changed },
   { name := ".text.f", type := STT_SECTION, sec := some 0 }]

/-- `priorSectionExample` のオブジェクト。 -/
def priorSectionElf : Elf := { sections := [0], symbols := [0, 1] }

/-- 前もって含めたセクションが展開済みでなければ、結果は閉じていない。`.text.f` はすでに含めてあるので、
`f` を含めても再帰は止まり、`f` が `CHANGED` であるのに `.text.f` のセクションのシンボルは含めない。
オブジェクトのリストは閉じ、リンクはローダの作るとおりで、前もって含めたセクションはリロケーションの
セクションを持たない。 -/
theorem include_changed_functions_prior_not_closed :
    RelocClosed priorSectionExample priorSectionElf.sections priorSectionElf.symbols ∧
    LoaderLinks priorSectionExample priorSectionElf ∧
    (∀ s, (priorSectionExample.sec s).included = true → (priorSectionExample.sec s).rela = none) ∧
    InClosure priorSectionExample priorSectionElf (.sym 1) ∧
    (xspliceIncludeChangedFunctions priorSectionExample priorSectionElf).toOption.map
      (fun r => (r.1.sym 1).included) = some false := by
  refine ⟨by decide, by decide, fun s hs => ?_,
    @InClosure.secsym _ _ 0 1 0 (.changed (by decide) (by decide)) ⟨rfl, .inr (by decide)⟩ rfl, by decide⟩
  rcases s with _ | s
  · rfl
  · exact absurd hs (by simp [priorSectionExample, Mem.ofLists])

end XspliceDiff

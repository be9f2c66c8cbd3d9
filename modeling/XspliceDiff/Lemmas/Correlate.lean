import XspliceDiff.Lemmas.Basic

/-!
# 対応づけの性質

改名と対応づけの段階（§4.1）が、どの入力でどう振る舞うか。どの段階も「最初に見つかったもの」を選び、
相手がまだ空いているか、同じ名前の要素が他にないかを確かめない。まず二つの対応づけのループに共通の
不変条件を示し、base の名前が互いに異なれば対が対称になることを導く。次に、そうでない入力で
モデルを評価した結果を述べる。
-/

namespace XspliceDiff

/-! ## 最初に合うものと対にするループ

`xsplice_correlate_sections` と `xsplice_correlate_symbols` は同じ形のループである：`l1` の各要素を、条件を満たす
`l2` の最初の要素と対にし、両方の `twin` を書く。状態、`twin` と名前の読み出し、対にする操作と条件を引数にとり、
このループの不変条件を一度だけ示す。 -/

/-- `twin` が `l1` と `l2` の間の対称な部分的な全単射で、対の名前が等しい。 -/
def TwinsSymmetric (twin : Nat → Option Nat) (name : Nat → String) (l1 l2 : List Nat) : Prop :=
  (∀ p ∈ l1, ∀ q, twin p = some q → q ∈ l2 ∧ twin q = some p ∧ name q = name p) ∧
  (∀ q ∈ l2, ∀ p, twin q = some p → p ∈ l1 ∧ twin p = some q)

section PairFirstMatch

variable {σ : Type} (twin : σ → Nat → Option Nat) (key : σ → Nat → String)
  (pair : σ → Nat → Nat → σ) (accepts : σ → Nat → Nat → Bool)

/-- ループの一周：`p1` を、`accepts` を満たす `l2` の最初の要素と `pair` で対にする。 -/
def pairFirstMatch (l2 : List Nat) (s : σ) (p1 : Nat) : σ :=
  match l2.find? (accepts s p1) with
  | some p2 => pair s p1 p2
  | none => s

/-- ループの不変条件。`done` は処理した `l1` の前半で、`l1` の要素で対を持つのは `done` の要素だけ。
対は `l1` と `l2` の間で対称で、名前が等しい。名前は変わらない。 -/
structure PairInv (s0 : σ) (l1 l2 done : List Nat) (s : σ) : Prop where
  keyEq : ∀ x, key s x = key s0 x
  twinLeft : ∀ p ∈ l1, ∀ q, twin s p = some q → p ∈ done ∧ q ∈ l2 ∧ twin s q = some p ∧ key s0 q = key s0 p
  twinRight : ∀ q ∈ l2, ∀ p, twin s q = some p → p ∈ done ∧ twin s p = some q

variable {twin key pair accepts}

theorem PairInv.step {s0 s : σ} {l1 l2 done : List Nat} {p1 : Nat}
    (hpairTwin : ∀ s p q x, twin (pair s p q) x = if x = q then some p else if x = p then some q else twin s x)
    (hpairKey : ∀ s p q x, key (pair s p q) x = key s x)
    (hacceptKey : ∀ s p q, accepts s p q = true → key s p = key s q)
    (hdisj : ∀ p ∈ l1, p ∉ l2) (hinj : ∀ p ∈ l1, ∀ p' ∈ l1, key s0 p = key s0 p' → p = p')
    (hdone : ∀ p ∈ done, p ∈ l1) (hp1 : p1 ∈ l1) (hnew : p1 ∉ done)
    (hinv : PairInv twin key s0 l1 l2 done s) :
    PairInv twin key s0 l1 l2 (done ++ [p1]) (pairFirstMatch pair accepts l2 s p1) := by
  unfold pairFirstMatch
  split
  · next p2 hfind =>
    have hp2 : p2 ∈ l2 := List.mem_of_find?_eq_some hfind
    have hkey : key s0 p2 = key s0 p1 := by
      rw [← hinv.keyEq, ← hinv.keyEq]; exact (hacceptKey _ _ _ (List.find?_some hfind)).symm
    have hne1 : ∀ p ∈ l1, p ≠ p2 := fun p hp h => hdisj p hp (h ▸ hp2)
    have hne2 : ∀ q ∈ l2, q ≠ p1 := fun q hq h => hdisj p1 hp1 (h ▸ hq)
    have hfree : twin s p2 = none := by
      cases hq : twin s p2 with
      | none => rfl
      | some p =>
        obtain ⟨hpd, hpq⟩ := hinv.twinRight p2 hp2 p hq
        obtain ⟨-, -, -, hk⟩ := hinv.twinLeft p (hdone p hpd) p2 hpq
        exact absurd (hinj p1 hp1 p (hdone p hpd) (hkey.symm.trans hk) ▸ hpd) hnew
    refine ⟨fun x => (hpairKey _ _ _ _).trans (hinv.keyEq x), fun p hp q hq => ?_, fun q hq p hpq => ?_⟩
    · rw [hpairTwin, if_neg (hne1 p hp)] at hq
      by_cases hpp : p = p1
      · subst hpp
        obtain rfl := Option.some.inj ((if_pos rfl).symm.trans hq)
        exact ⟨by simp, hp2, by rw [hpairTwin, if_pos rfl], hkey⟩
      · rw [if_neg hpp] at hq
        obtain ⟨hpd, hql2, hqp, hk⟩ := hinv.twinLeft p hp q hq
        have hq2 : q ≠ p2 := fun h => by rw [h, hfree] at hqp; cases hqp
        exact ⟨List.mem_append_left _ hpd, hql2, by rw [hpairTwin, if_neg hq2, if_neg (hne2 q hql2), hqp], hk⟩
    · rw [hpairTwin] at hpq
      by_cases hq2 : q = p2
      · subst hq2
        obtain rfl := Option.some.inj ((if_pos rfl).symm.trans hpq)
        exact ⟨by simp, by rw [hpairTwin, if_neg (hne1 p1 hp1), if_pos rfl]⟩
      · rw [if_neg hq2, if_neg (hne2 q hq)] at hpq
        obtain ⟨hpd, hpq'⟩ := hinv.twinRight q hq p hpq
        have hp1' : p ≠ p1 := fun h => hnew (h ▸ hpd)
        exact ⟨List.mem_append_left _ hpd, by rw [hpairTwin, if_neg (hne1 p (hdone p hpd)), if_neg hp1', hpq']⟩
  · exact ⟨hinv.keyEq,
      fun p hp q hq => (hinv.twinLeft p hp q hq).imp_left (List.mem_append_left _),
      fun q hq p hpq => (hinv.twinRight q hq p hpq).imp_left (List.mem_append_left _)⟩

/-- ループ全体：名前の異なる `l1` の残り `rest` を処理すると、不変条件は `l1` 全体について成り立つ。 -/
theorem PairInv.run {s0 : σ} {l1 l2 : List Nat}
    (hpairTwin : ∀ s p q x, twin (pair s p q) x = if x = q then some p else if x = p then some q else twin s x)
    (hpairKey : ∀ s p q x, key (pair s p q) x = key s x)
    (hacceptKey : ∀ s p q, accepts s p q = true → key s p = key s q)
    (hdisj : ∀ p ∈ l1, p ∉ l2) (hnames : (l1.map (key s0)).Nodup) :
    ∀ (rest done : List Nat) (s : σ), done ++ rest = l1 → PairInv twin key s0 l1 l2 done s →
      PairInv twin key s0 l1 l2 l1 (rest.foldl (pairFirstMatch pair accepts l2) s)
  | [], _, _, h, hinv => by rw [List.append_nil] at h; exact h ▸ hinv
  | p1 :: rest, done, s, h, hinv => by
    have hnodup : (done ++ p1 :: rest).Nodup := h ▸ hnames.of_map _
    refine PairInv.run hpairTwin hpairKey hacceptKey hdisj hnames rest (done ++ [p1]) _ (by simp [← h]) ?_
    exact hinv.step hpairTwin hpairKey hacceptKey hdisj (List.inj_on_of_nodup_map hnames)
      (fun p hp => h ▸ List.mem_append_left _ hp) (h ▸ by simp)
      (fun hin => List.disjoint_of_nodup_append hnodup hin (List.mem_cons_self _ _))

/-- まだ対のない、互いに交わらない `l1` と `l2` で、`l1` の名前が互いに異なれば、ループの後の対は
`l1` と `l2` の間の対称な部分的な全単射で、対の名前は等しい。 -/
theorem pairFirstMatch_symmetric {s0 : σ} {l1 l2 : List Nat}
    (hpairTwin : ∀ s p q x, twin (pair s p q) x = if x = q then some p else if x = p then some q else twin s x)
    (hpairKey : ∀ s p q x, key (pair s p q) x = key s x)
    (hacceptKey : ∀ s p q, accepts s p q = true → key s p = key s q)
    (hfresh : ∀ p ∈ l1 ++ l2, twin s0 p = none) (hdisj : ∀ p ∈ l1, p ∉ l2)
    (hnames : (l1.map (key s0)).Nodup) :
    TwinsSymmetric (twin (l1.foldl (pairFirstMatch pair accepts l2) s0))
      (key (l1.foldl (pairFirstMatch pair accepts l2) s0)) l1 l2 := by
  have hinv := PairInv.run hpairTwin hpairKey hacceptKey hdisj hnames l1 [] s0 rfl
    ⟨fun _ => rfl,
     fun p hp q hq => (Option.noConfusion ((hfresh p (List.mem_append_left _ hp)).symm.trans hq)),
     fun q hq p hpq => (Option.noConfusion ((hfresh q (List.mem_append_right _ hq)).symm.trans hpq))⟩
  refine ⟨fun p hp q hq => ?_, fun q hq p hpq => hinv.twinRight q hq p hpq⟩
  obtain ⟨-, hql2, hqp, hk⟩ := hinv.twinLeft p hp q hq
  exact ⟨hql2, hqp, by rw [hinv.keyEq, hinv.keyEq, hk]⟩

end PairFirstMatch

/-! ## 改名された複製の関数 -/

/-- 同じ関数の二つの複製 `foo.constprop.0` と `foo.constprop.1` を、base（セクション 0、1）と patched
（セクション 2、3）の両方に持つ入力。シンボル 4 から 7 はセクションのシンボル。 -/
def cloneExample : Mem := Mem.ofLists
  [{ name := ".text.foo.constprop.0", sym := some 0, secsym := some 4, sh := { shType := SHT_PROGBITS } },
   { name := ".text.foo.constprop.1", sym := some 1, secsym := some 5, sh := { shType := SHT_PROGBITS } },
   { name := ".text.foo.constprop.0", sym := some 2, secsym := some 6, sh := { shType := SHT_PROGBITS } },
   { name := ".text.foo.constprop.1", sym := some 3, secsym := some 7, sh := { shType := SHT_PROGBITS } }]
  [{ name := "foo.constprop.0", type := STT_FUNC, sec := some 0 },
   { name := "foo.constprop.1", type := STT_FUNC, sec := some 1 },
   { name := "foo.constprop.0", type := STT_FUNC, sec := some 2 },
   { name := "foo.constprop.1", type := STT_FUNC, sec := some 3 },
   { name := ".text.foo.constprop.0", type := STT_SECTION, sec := some 0 },
   { name := ".text.foo.constprop.1", type := STT_SECTION, sec := some 1 },
   { name := ".text.foo.constprop.0", type := STT_SECTION, sec := some 2 },
   { name := ".text.foo.constprop.1", type := STT_SECTION, sec := some 3 }]

/-- `cloneExample` の base。 -/
def cloneBase : Elf := { sections := [0, 1], symbols := [0, 1, 4, 5] }

/-- `cloneExample` の patched。 -/
def clonePatched : Elf := { sections := [2, 3], symbols := [2, 3, 6, 7] }

/-- `xsplice_rename_mangled_functions` は、patched の `foo.constprop.1` を、同じ名前の base の関数があるのに、
`xsplice_mangled_strcmp` で等しい最初の base のシンボル `foo.constprop.0` の名前に変える。
そのセクションも `.text.foo.constprop.0` になり、patched に同じ名前の関数とセクションが二つずつできる。 -/
theorem rename_mangled_functions_merges_clones :
    (xspliceRenameMangledFunctions cloneExample cloneBase clonePatched).toOption.map
      (fun m => ((m.sym 2).name, (m.sym 3).name, (m.sec 2).name, (m.sec 3).name)) =
    some ("foo.constprop.0", "foo.constprop.0", ".text.foo.constprop.0", ".text.foo.constprop.0") := by
  decide

/-! ## 改名と、セクションのシンボル -/

/-- base の `foo.isra.1` と patched の `foo.isra.2`。どちらのセクションにもセクションのシンボルがある。 -/
def israExample : Mem := Mem.ofLists
  [{ name := ".text.foo.isra.1", sh := { shType := SHT_PROGBITS, shFlags := 6, shSize := 4 },
     sym := some 0, secsym := some 1 },
   { name := ".text.foo.isra.2", sh := { shType := SHT_PROGBITS, shFlags := 6, shSize := 4 },
     sym := some 2, secsym := some 3 }]
  [{ name := "foo.isra.1", type := STT_FUNC, sec := some 0 },
   { name := ".text.foo.isra.1", type := STT_SECTION, sec := some 0 },
   { name := "foo.isra.2", type := STT_FUNC, sec := some 1 },
   { name := ".text.foo.isra.2", type := STT_SECTION, sec := some 1 }]

/-- `israExample` の base。 -/
def israBase : Elf := { sections := [0], symbols := [0, 1] }

/-- `israExample` の patched。 -/
def israPatched : Elf := { sections := [1], symbols := [2, 3] }

/-- 改名はセクションの名前を `.text.foo.isra.1` に変えるが、そのセクションのシンボルの名前は変えない。
そのため、二つのセクションは対になるのに、それぞれのセクションのシンボルはどちらも相手を持たない。 -/
theorem rename_leaves_section_symbol_untwinned :
    (do
      let m ← xspliceRenameMangledFunctions israExample israBase israPatched
      let m := xspliceCorrelateElfs m israBase israPatched
      xspliceCorrelateStaticLocalVariables m israPatched).toOption.map
      (fun (m : Mem) => ((m.sec 1).name, (m.sec 1).twin, (m.sym 3).name, (m.sym 3).twin, (m.sym 1).twin)) =
    some (".text.foo.isra.1", some 0, ".text.foo.isra.2", none, none) := by
  decide

/-! ## 同じ名前のセクション -/

/-- 名前が `.text` のセクションが三つ。base は 0 と 1、patched は 2。 -/
def sameNameExample : Mem := Mem.ofLists [{ name := ".text" }, { name := ".text" }, { name := ".text" }] []

/-- `sameNameExample` の base。 -/
def sameNameBase : Elf := { sections := [0, 1] }

/-- `sameNameExample` の patched。 -/
def sameNamePatched : Elf := { sections := [2] }

/-- `xsplice_correlate_sections` は、base の二つのセクションをどちらも patched のセクション 2 と対にし、
2 の `twin` は後のほうの 1 を指す。0 の `twin` は 2 なのに、2 の `twin` は 0 ではない。 -/
theorem correlate_sections_twins_one_section_twice :
    (do
      let m := xspliceCorrelateElfs sameNameExample sameNameBase sameNamePatched
      xspliceCorrelateStaticLocalVariables m sameNamePatched).toOption.map
      (fun (m : Mem) => ((m.sec 0).twin, (m.sec 1).twin, (m.sec 2).twin)) = some (some 2, some 2, some 1) := by
  decide

/-! ## 静的な局所変数 -/

/-- base では `f` が `counter.7` を、`g` が `counter.9` を使い、patched では `f` が `counter.9` を使う。
セクションは base が 0 から 4（`.text.f`、`.rela.text.f`、`.text.g`、`.rela.text.g`、`.bss`）、patched が
5 から 7（`.text.f`、`.rela.text.f`、`.bss`）。シンボルは base が 0 から 3、patched が 4 と 5。 -/
def staticLocalExample : Mem := Mem.ofLists
  [{ name := ".text.f", sh := { shType := SHT_PROGBITS, shFlags := 6, shSize := 8 }, sym := some 0, rela := some 1 },
   { name := ".rela.text.f", sh := { shType := SHT_RELA, shEntsize := 24, shSize := 24 }, base := some 0,
     relas := [{ sym := 2, type := R_X86_64_PC32, offset := 2 }] },
   { name := ".text.g", sh := { shType := SHT_PROGBITS, shFlags := 6, shSize := 8 }, sym := some 1, rela := some 3 },
   { name := ".rela.text.g", sh := { shType := SHT_RELA, shEntsize := 24, shSize := 24 }, base := some 2,
     relas := [{ sym := 3, type := R_X86_64_PC32, offset := 2 }] },
   { name := ".bss", sh := { shType := SHT_NOBITS, shSize := 8 } },
   { name := ".text.f", sh := { shType := SHT_PROGBITS, shFlags := 6, shSize := 8 }, sym := some 4, rela := some 6 },
   { name := ".rela.text.f", sh := { shType := SHT_RELA, shEntsize := 24, shSize := 24 }, base := some 5,
     relas := [{ sym := 5, type := R_X86_64_PC32, offset := 2 }] },
   { name := ".bss", sh := { shType := SHT_NOBITS, shSize := 8 } }]
  [{ name := "f", type := STT_FUNC, sec := some 0 },
   { name := "g", type := STT_FUNC, sec := some 2 },
   { name := "counter.7", type := STT_OBJECT, sec := some 4 },
   { name := "counter.9", type := STT_OBJECT, sec := some 4, sym := { stValue := 4 } },
   { name := "f", type := STT_FUNC, sec := some 5 },
   { name := "counter.9", type := STT_OBJECT, sec := some 7 }]

/-- `staticLocalExample` の base。 -/
def staticLocalBase : Elf := { sections := [0, 1, 2, 3, 4], symbols := [0, 1, 2, 3] }

/-- `staticLocalExample` の patched。 -/
def staticLocalPatched : Elf := { sections := [5, 6, 7], symbols := [4, 5] }

/-- patched の `f` の `counter.9` は、名前が同じなので `xsplice_correlate_symbols` で base の `g` の `counter.9` と
対になり、静的な局所変数の段階は対のあるシンボルを飛ばす。patched の `.rela.text.f` の相手の base の
`.rela.text.f` が参照するのは、名前が等しくなる `counter.7` のほうである。 -/
theorem static_local_twinned_across_functions :
    (do
      let m := xspliceCorrelateElfs staticLocalExample staticLocalBase staticLocalPatched
      xspliceCorrelateStaticLocalVariables m staticLocalPatched).toOption.map
      (fun (m : Mem) => ((m.sym 5).twin, (m.sec 6).twin, (m.sec 1).relas.map Rela.sym,
        xspliceMangledStrcmp (m.sym 2).name (m.sym 3).name)) =
    some (some 3, some 1, [2], 0) := by
  decide

/-! ## 名前が異なるときの対応の対称性

base のセクションの名前どうし、シンボルの名前どうしが異なれば、`xsplice_correlate_elfs` の二つのループは、
最初に合うものを選んでも対称な対を作る。同じ名前が二つあると崩れることは、上の `.text.foo` の入力が示す。 -/

theorem twinSections_twin (m : Mem) (p q x : SecRef) :
    ((twinSections m p q).sec x).twin = if x = q then some p else if x = p then some q else (m.sec x).twin := by
  simp only [twinSections, Mem.modSec_sec]
  split_ifs <;> simp_all

theorem twinSections_name (m : Mem) (p q x : SecRef) :
    ((twinSections m p q).sec x).name = (m.sec x).name := by
  simp only [twinSections, Mem.modSec_sec]
  split_ifs <;> simp_all

theorem twinSymbols_twin (m : Mem) (p q x : SymRef) :
    ((twinSymbols m p q).sym x).twin = if x = q then some p else if x = p then some q else (m.sym x).twin := by
  simp only [twinSymbols, Mem.modSym_sym]
  split_ifs <;> simp_all

theorem twinSymbols_name (m : Mem) (p q x : SymRef) :
    ((twinSymbols m p q).sym x).name = (m.sym x).name := by
  simp only [twinSymbols, Mem.modSym_sym]
  split_ifs <;> simp_all

theorem sectionsMatch_name {m : Mem} {s1 s2 : Section} (h : sectionsMatch m s1 s2 = true) : s1.name = s2.name := by
  simp only [sectionsMatch, Bool.and_eq_true, beq_iff_eq] at h
  exact h.1.1

theorem symbolsMatch_name {m : Mem} {p1 p2 : SymRef} (h : symbolsMatch m p1 p2 = true) :
    (m.sym p1).name = (m.sym p2).name := by
  simp only [symbolsMatch, Bool.and_eq_true, beq_iff_eq] at h
  exact h.1.1.1.1

theorem correlateSection_sym (l2 : List SecRef) (m : Mem) (p : SecRef) : (correlateSection l2 m p).sym = m.sym := by
  unfold correlateSection; split <;> rfl

theorem correlateSymbol_sec (l2 : List SymRef) (m : Mem) (p : SymRef) : (correlateSymbol l2 m p).sec = m.sec := by
  unfold correlateSymbol; split <;> rfl

/-- base のセクションの名前どうし、シンボルの名前どうしがそれぞれ異なり、まだ対がなければ、
`xsplice_correlate_elfs` の後の `twin` は、セクションでもシンボルでも、base と patched の間の対称な
部分的な全単射で、対の名前は等しい。 -/
theorem correlate_elfs_symmetric {m : Mem} {base patched : Elf}
    (hsecFresh : ∀ p ∈ base.sections ++ patched.sections, (m.sec p).twin = none)
    (hsymFresh : ∀ y ∈ base.symbols ++ patched.symbols, (m.sym y).twin = none)
    (hsecDisj : ∀ p ∈ base.sections, p ∉ patched.sections)
    (hsymDisj : ∀ y ∈ base.symbols, y ∉ patched.symbols)
    (hsecNames : (base.sections.map fun p => (m.sec p).name).Nodup)
    (hsymNames : (base.symbols.map fun y => (m.sym y).name).Nodup) :
    TwinsSymmetric (fun p => ((xspliceCorrelateElfs m base patched).sec p).twin)
      (fun p => ((xspliceCorrelateElfs m base patched).sec p).name) base.sections patched.sections ∧
    TwinsSymmetric (fun y => ((xspliceCorrelateElfs m base patched).sym y).twin)
      (fun y => ((xspliceCorrelateElfs m base patched).sym y).name) base.symbols patched.symbols := by
  have hsec := Mem.foldl_sec_eq (correlateSymbol_sec patched.symbols) base.symbols
    (xspliceCorrelateSections m base.sections patched.sections)
  have hsym := Mem.foldl_sym_eq (correlateSection_sym patched.sections) base.sections m
  constructor
  · have h := @pairFirstMatch_symmetric Mem (fun m p => (m.sec p).twin) (fun m p => (m.sec p).name) twinSections
      (fun m p1 p2 => sectionsMatch m (m.sec p1) (m.sec p2)) m base.sections patched.sections
      (twinSections_twin) (twinSections_name) (fun _ _ _ h => sectionsMatch_name h) hsecFresh hsecDisj hsecNames
    simpa only [xspliceCorrelateElfs, xspliceCorrelateSymbols, hsec] using h
  · have h := @pairFirstMatch_symmetric Mem (fun m y => (m.sym y).twin) (fun m y => (m.sym y).name) twinSymbols
      (fun m p1 p2 => symbolsMatch m p1 p2) (xspliceCorrelateSections m base.sections patched.sections)
      base.symbols patched.symbols (twinSymbols_twin) (twinSymbols_name) (fun _ _ _ h => symbolsMatch_name h)
      (by simpa only [xspliceCorrelateSections, hsym] using hsymFresh) hsymDisj
      (by simpa only [xspliceCorrelateSections, hsym] using hsymNames)
    exact h

/-- `staticLocalExample` の base の名前は互いに異なるので、対は対称である（`counter.9` が `g` の側と対に
なっても）。 -/
theorem static_local_example_twins_symmetric :
    TwinsSymmetric (fun p => ((xspliceCorrelateElfs staticLocalExample staticLocalBase staticLocalPatched).sec p).twin)
      (fun p => ((xspliceCorrelateElfs staticLocalExample staticLocalBase staticLocalPatched).sec p).name)
      staticLocalBase.sections staticLocalPatched.sections ∧
    TwinsSymmetric (fun y => ((xspliceCorrelateElfs staticLocalExample staticLocalBase staticLocalPatched).sym y).twin)
      (fun y => ((xspliceCorrelateElfs staticLocalExample staticLocalBase staticLocalPatched).sym y).name)
      staticLocalBase.symbols staticLocalPatched.symbols :=
  @correlate_elfs_symmetric staticLocalExample staticLocalBase staticLocalPatched
    (by decide) (by decide) (by decide) (by decide) (by decide) (by decide)


/-! ## セクションのシンボルの置き換え

`xsplice_replace_sections_syms` は、まとめられていないセクションのシンボルへのリロケーションを、範囲
`[st_value, st_value + st_size)` が参照する位置を含むシンボルへのものに書き換え、`addend` から `st_value` を引く。
`st_value` が `int` に収まれば、参照する位置は変わらない。範囲は `int` の `start` と `end` に入れてから比べるので、
64 ビットの `st_value` が 2^32 を越えると範囲が切り詰められ、参照する位置を含まないシンボルが選ばれる。 -/

/-- 一つのリロケーションの書き換えは三通り：そのまま、まとめられたシンボルへ、範囲が位置を含むシンボルへ。 -/
theorem replaceSectionSym_cases {decode : InsnDecoder} {m : Mem} {kelf : Elf} {sec : Section} {rela rela' : Rela}
    (h : replaceSectionSym decode m kelf sec rela = .ok rela') :
    rela' = rela ∨
    (∃ s b, (m.sym rela.sym).type = STT_SECTION ∧ (m.sym rela.sym).sec = some s ∧ (m.sec s).sym = some b ∧
      rela' = { rela with sym := b }) ∨
    (∃ q ∈ kelf.symbols, (m.sym rela.sym).type = STT_SECTION ∧ (m.sym q).sec = (m.sym rela.sym).sec ∧
      rela' = { rela with sym := q, addend := rela.addend - toInt32 (m.sym q).sym.stValue }) := by
  dsimp only [replaceSectionSym] at h
  by_cases ht : (m.sym rela.sym).type = STT_SECTION
  swap
  · rw [if_pos ht] at h
    exact .inl (Except.ok.inj h).symm
  rw [if_neg (not_not.mpr ht), pure_bind] at h
  split at h
  on_goal 1 =>
    split at h
    on_goal 1 => exact .inr (.inl ⟨_, _, ht, ‹_›, ‹_›, (Except.ok.inj h).symm⟩)
  all_goals
    rw [pure_bind] at h
    split_ifs at h
    on_goal 1 =>
      split at h
      on_goal 2 => cases h
    on_goal 3 => exact .inl (Except.ok.inj h).symm
    all_goals
      rw [pure_bind] at h
      dsimp only at h
      split at h
      · rename_i q hq
        have hin := List.find?_some hq
        simp only [Bool.and_eq_true, bne_iff_ne, beq_iff_eq] at hin
        exact .inr (.inr ⟨q, List.mem_of_find?_eq_some hq, ht, hin.1.1.2, (Except.ok.inj h).symm⟩)
      · exact .inl (Except.ok.inj h).symm

/-- `rela'` は `rela` と同じセクションの同じ位置を指し、参照先と `addend` のほかは同じ。 -/
def SameTarget (m : Mem) (rela rela' : Rela) : Prop :=
  (m.sym rela'.sym).sec = (m.sym rela.sym).sec ∧
  ((m.sym rela'.sym).sym.stValue : Int) + rela'.addend = (m.sym rela.sym).sym.stValue + rela.addend ∧
  { rela' with sym := rela.sym, addend := rela.addend } = rela

theorem SameTarget.trans {m : Mem} {r1 r2 r3 : Rela} (h12 : SameTarget m r1 r2) (h23 : SameTarget m r2 r3) :
    SameTarget m r1 r3 := by
  obtain ⟨hs12, hv12, hf12⟩ := h12
  obtain ⟨hs23, hv23, hf23⟩ := h23
  refine ⟨hs23.trans hs12, hv23.trans hv12, ?_⟩
  rw [← hf12, ← hf23]

theorem toInt32_of_lt {x : Nat} (h : x < 2 ^ 31) : toInt32 x = x := by
  rw [toInt32, Nat.mod_eq_of_lt (by omega), if_pos h]

theorem forall₂_sameTarget_trans {m : Mem} :
    ∀ {l1 l2 l3 : List Rela}, List.Forall₂ (SameTarget m) l1 l2 → List.Forall₂ (SameTarget m) l2 l3 →
      List.Forall₂ (SameTarget m) l1 l3
  | _, _, _, .nil, .nil => .nil
  | _, _, _, .cons h1 t1, .cons h2 t2 => .cons (h1.trans h2) (forall₂_sameTarget_trans t1 t2)

/-- `m1` は `m` から、リロケーションを同じ位置を指したまま書き換えたものである。 -/
structure Retargeted (m m1 : Mem) : Prop where
  sym : m1.sym = m.sym
  sec : ∀ s, { m1.sec s with relas := [] } = { m.sec s with relas := [] }
  relas : ∀ s, List.Forall₂ (SameTarget m) (m.sec s).relas (m1.sec s).relas

theorem Retargeted.refl (m : Mem) : Retargeted m m := ⟨rfl, fun _ => rfl, fun _ => List.forall₂_same.mpr fun _ _ => ⟨rfl, rfl, rfl⟩⟩

section SameTargets

variable {m : Mem} {kelf : Elf} (hsmall : ∀ q ∈ kelf.symbols, (m.sym q).sym.stValue < 2 ^ 31)
  (hzero : ∀ q, (m.sym q).type = STT_SECTION → (m.sym q).sym.stValue = 0)
  (hbundled : ∀ s b, (m.sec s).sym = some b → (m.sym b).sym.stValue = 0 ∧ (m.sym b).sec = some s)
include hsmall hzero hbundled

theorem replaceSectionSym_sameTarget {decode : InsnDecoder} {sec : Section} {rela rela' : Rela}
    (h : replaceSectionSym decode m kelf sec rela = .ok rela') : SameTarget m rela rela' := by
  rcases replaceSectionSym_cases h with rfl | ⟨s, b, ht, hs, hb, rfl⟩ | ⟨q, hq, ht, hsec, rfl⟩
  · exact ⟨rfl, rfl, rfl⟩
  · obtain ⟨hv, hbs⟩ := hbundled s b hb
    exact ⟨hbs.trans hs.symm, by simp [hv, hzero _ ht], rfl⟩
  · refine ⟨hsec, ?_, rfl⟩
    simp only [toInt32_of_lt (hsmall q hq), hzero _ ht]
    omega

theorem mapM_replaceSectionSym_sameTarget {decode : InsnDecoder} {sec : Section} :
    ∀ {relas relas' : List Rela}, relas.mapM (replaceSectionSym decode m kelf sec) = .ok relas' →
      List.Forall₂ (SameTarget m) relas relas'
  | [], _, h => by cases h; exact .nil
  | rela :: relas, _, h => by
    simp only [List.mapM_cons, bind_eq_ok, pure_eq_ok, Except.ok.injEq] at h
    obtain ⟨r, hr, rs, hrs, rfl⟩ := h
    exact .cons (replaceSectionSym_sameTarget hsmall hzero hbundled hr) (mapM_replaceSectionSym_sameTarget hrs)

theorem Retargeted.hyps {m1 : Mem} (hr : Retargeted m m1) :
    (∀ q ∈ kelf.symbols, (m1.sym q).sym.stValue < 2 ^ 31) ∧
    (∀ q, (m1.sym q).type = STT_SECTION → (m1.sym q).sym.stValue = 0) ∧
    (∀ s b, (m1.sec s).sym = some b → (m1.sym b).sym.stValue = 0 ∧ (m1.sym b).sec = some s) := by
  rw [hr.sym]
  refine ⟨hsmall, hzero, fun s b hb => hbundled s b ?_⟩
  have hsym := congrArg Section.sym (hr.sec s)
  dsimp only at hsym
  rwa [← hsym]

theorem replaceSectionsSyms_retargeted {decode : InsnDecoder} {m' : Mem}
    (h : xspliceReplaceSectionsSyms decode m kelf = .ok m') : Retargeted m m' := by
  unfold xspliceReplaceSectionsSyms at h
  generalize kelf.sections = L at h
  obtain ⟨m1, hm1, h'⟩ : ∃ m1, Retargeted m m1 ∧ List.foldlM _ m1 L = .ok m' := ⟨m, .refl m, h⟩
  clear h
  induction L generalizing m1 with
  | nil => cases h'; exact hm1
  | cons p L ih =>
    rw [List.foldlM_cons] at h'
    obtain ⟨m2, hstep, h'⟩ := bind_eq_ok.mp h'
    refine ih m2 ?_ h'
    dsimp only at hstep
    split_ifs at hstep
    · cases hstep; exact hm1
    rw [pure_bind] at hstep
    obtain ⟨relas, hrelas, hstep⟩ := bind_eq_ok.mp hstep
    cases hstep
    obtain ⟨hs1, hz1, hb1⟩ := hm1.hyps hsmall hzero hbundled
    have hsame := mapM_replaceSectionSym_sameTarget hs1 hz1 hb1 hrelas
    have hm : SameTarget m1 = SameTarget m := by unfold SameTarget; rw [hm1.sym]
    rw [hm] at hsame
    refine ⟨hm1.sym, fun s => ?_, fun s => ?_⟩
    · by_cases hs : s = p
      · subst hs; rw [Mem.modSec_sec_self]; exact hm1.sec s
      · rw [Mem.modSec_sec_of_ne _ _ hs]; exact hm1.sec s
    · by_cases hs : s = p
      · subst hs; rw [Mem.modSec_sec_self]; exact forall₂_sameTarget_trans (hm1.relas s) hsame
      · rw [Mem.modSec_sec_of_ne _ _ hs]; exact hm1.relas s

/-- セクションのシンボルとまとめられたシンボルの `st_value` が 0 で、まとめられたシンボルがそのセクションにあり、
シンボルの `st_value` が 2^31 より小さければ、`xsplice_replace_sections_syms` はシンボルを変えず、どのリロケーションも、
同じセクションの同じ位置（`st_value + addend`）を指したまま、参照先と `addend` だけを書き換える。 -/
theorem replace_sections_syms_same_targets {decode : InsnDecoder} {m' : Mem}
    (h : xspliceReplaceSectionsSyms decode m kelf = .ok m') :
    m'.sym = m.sym ∧ ∀ p, List.Forall₂ (SameTarget m) (m.sec p).relas (m'.sec p).relas :=
  have hr := replaceSectionsSyms_retargeted hsmall hzero hbundled h
  ⟨hr.sym, hr.relas⟩

end SameTargets

/-- 64 バイトの `.bss` の中の `big`（位置 0、大きさ 32）と `x`（位置 48、大きさ 4）、`f` にまとめられた `.text.f`。
`.rela.text.f` は `.bss + 16` と `.text.f - 4` を指す。 -/
def smallBssExample : Mem := Mem.ofLists
  [{ name := ".bss", sh := { shType := SHT_NOBITS, shFlags := 3, shSize := 64 }, secsym := some 2 },
   { name := ".text.f", sh := { shType := SHT_PROGBITS, shFlags := 6, shSize := 16 }, sym := some 3, secsym := some 4,
     rela := some 2 },
   { name := ".rela.text.f", sh := { shType := SHT_RELA, shEntsize := 24, shSize := 48 }, base := some 1,
     relas := [{ sym := 2, type := R_X86_64_64, addend := 16, offset := 0 },
               { sym := 4, type := R_X86_64_PC32, addend := -4, offset := 8 }] }]
  [{ name := "big", type := STT_OBJECT, sec := some 0, sym := { stValue := 0, stSize := 32 } },
   { name := "x", type := STT_OBJECT, sec := some 0, sym := { stValue := 48, stSize := 4 } },
   { name := ".bss", type := STT_SECTION, sec := some 0 },
   { name := "f", type := STT_FUNC, sec := some 1, sym := { stSize := 16 } },
   { name := ".text.f", type := STT_SECTION, sec := some 1 }]

/-- `smallBssExample` の ELF：セクション 0 から 2 と、シンボル 0 から 4。 -/
def smallBssElf : Elf := { sections := [0, 1, 2], symbols := [0, 1, 2, 3, 4] }

theorem small_bss_example_same_targets :
    ∃ m', xspliceReplaceSectionsSyms (fun _ _ => none) smallBssExample smallBssElf = .ok m' ∧
      m'.sym = smallBssExample.sym ∧
      ∀ p, List.Forall₂ (SameTarget smallBssExample) (smallBssExample.sec p).relas (m'.sec p).relas :=
  ⟨_, rfl, @replace_sections_syms_same_targets smallBssExample smallBssElf (by decide)
    (fun q hq => by
      rcases q with _ | _ | _ | _ | _ | q <;> simp_all [smallBssExample, Mem.ofLists, STT_SECTION, STT_OBJECT, STT_FUNC])
    (fun s b hb => by
      rcases s with _ | _ | _ | s <;> simp [smallBssExample, Mem.ofLists] at hb
      subst hb
      exact ⟨rfl, rfl⟩) (fun _ _ => none) _ rfl⟩

/-- 2^32 + 32 バイトの `.bss` と、その中の `big`（位置 0、大きさ 2^32）、`x`（位置 2^32 + 16、大きさ 4）、
`.bss` のセクションのシンボルを `addend` 16 で指す `R_X86_64_64` を一つ持つ `.rela.text.f`。 -/
def bigBssExample : Mem := Mem.ofLists
  [{ name := ".bss", sh := { shType := SHT_NOBITS, shFlags := 3, shSize := 2 ^ 32 + 32 }, secsym := some 2 },
   { name := ".text.f", sh := { shType := SHT_PROGBITS, shFlags := 6, shSize := 16 }, rela := some 2 },
   { name := ".rela.text.f", sh := { shType := SHT_RELA, shEntsize := 24, shSize := 24 }, base := some 1,
     relas := [{ sym := 2, type := R_X86_64_64, addend := 16, offset := 0 }] }]
  [{ name := "big", type := STT_OBJECT, sec := some 0, sym := { stValue := 0, stSize := 2 ^ 32 } },
   { name := "x", type := STT_OBJECT, sec := some 0, sym := { stValue := 2 ^ 32 + 16, stSize := 4 } },
   { name := ".bss", type := STT_SECTION, sec := some 0 }]

/-- `bigBssExample` の ELF：セクション 0 から 2 と、シンボル 0 から 2。 -/
def bigBssElf : Elf := { sections := [0, 1, 2], symbols := [0, 1, 2] }

/-- リロケーションは `.bss + 16`（`big` の中）を指すが、`big` の `end` は 0 に、`x` の `start` は 16 に
切り詰められるので、置き換えた後は `x + 0`、つまり `.bss + 2^32 + 16` を指す。 -/
theorem replace_sections_syms_truncates_value :
    ((bigBssExample.sec 2).relas.map fun rela =>
      (rela.sym, ((bigBssExample.sym rela.sym).sym.stValue : Int) + rela.addend)) = [(2, 16)] ∧
    (xspliceReplaceSectionsSyms (fun _ _ => none) bigBssExample bigBssElf).toOption.map
      (fun m => (m.sec 2).relas.map fun rela => (rela.sym, ((m.sym rela.sym).sym.stValue : Int) + rela.addend)) =
      some [(1, 2 ^ 32 + 16)] := by
  decide

end XspliceDiff

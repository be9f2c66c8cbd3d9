import XspliceDiff.Lemmas.Basic

/-!
# 比較の性質

`xsplice_compare_symbols` の一周は、そのシンボルの `status` だけを書き換える。対応のないシンボルは `NEW` に、
対応があって `SHN_UNDEF` か `SHN_ABS` のシンボルは `SAME` になる（§4.2）。

`xsplice_compare_sections` は、セクションの状態を、まとめられたシンボルに写す。リロケーションのセクションの
状態は `base` のシンボルに写し、すでに `CHANGED` のシンボルだけは上書きしない。片方の側にしかない
リロケーションのセクションは `NEW` なので、その関数は `CHANGED` にならない。

最初のループがセクションに付ける状態は、§4.2 の言葉で書いた参照の定義に一致する。ローダの不変条件
（リロケーションのセクションは `sh_size / sh_entsize` 個のリロケーションを持つ）のもとで、`twin` のリストを
並べて歩く `rela2` はその終わりを越えない。
-/

namespace XspliceDiff

/-! ## シンボルの状態だけを書き換える -/

/-- `m'` は、シンボルの `status` だけを書き換えたもの（セクションは何でもよい）。 -/
def SymStatusesOnly (m m' : Mem) : Prop := ∀ y, m'.sym y = { m.sym y with status := (m'.sym y).status }

theorem SymStatusesOnly.trans {m m1 m2 : Mem} (h1 : SymStatusesOnly m m1) (h2 : SymStatusesOnly m1 m2) :
    SymStatusesOnly m m2 := fun y => by rw [h2 y, h1 y]

theorem SymStatusesOnly.foldl {β : Type} {f : Mem → β → Mem} (hf : ∀ m x, SymStatusesOnly m (f m x)) :
    ∀ (l : List β) (m : Mem), SymStatusesOnly m (l.foldl f m)
  | [], _ => fun _ => rfl
  | x :: l, m => (hf m x).trans (SymStatusesOnly.foldl hf l (f m x))

theorem SymStatusesOnly.foldlM {β : Type} {f : Mem → β → Except Abort Mem}
    (hf : ∀ m x m', f m x = .ok m' → SymStatusesOnly m m') :
    ∀ (l : List β) (m m' : Mem), l.foldlM f m = .ok m' → SymStatusesOnly m m'
  | [], _, _, h => Except.ok.inj h ▸ fun _ => rfl
  | x :: l, m, _, h => by
    rw [List.foldlM_cons, bind_eq_ok] at h
    obtain ⟨m1, h1, h2⟩ := h
    exact (hf m x m1 h1).trans (SymStatusesOnly.foldlM hf l m1 _ h2)

theorem SymStatusesOnly.setStatus (m : Mem) (p : SymRef) (st : Status) :
    SymStatusesOnly m (m.modSym p fun y => { y with status := st }) := fun y => by
  by_cases hy : y = p <;> simp [hy]

/-- `m'` は、シンボル `p` の `status` だけを書き換えたもの。 -/
structure SymStatusOnly (m m' : Mem) (p : SymRef) : Prop where
  sec : m'.sec = m.sec
  other : ∀ y, y ≠ p → m'.sym y = m.sym y
  self : m'.sym p = { m.sym p with status := (m'.sym p).status }

namespace SymStatusOnly

variable {m m1 m2 : Mem} {p : SymRef}

theorem refl (m : Mem) (p : SymRef) : SymStatusOnly m m p := ⟨rfl, fun _ _ => rfl, rfl⟩

theorem trans (h1 : SymStatusOnly m m1 p) (h2 : SymStatusOnly m1 m2 p) : SymStatusOnly m m2 p :=
  ⟨h2.sec.trans h1.sec, fun y hy => (h2.other y hy).trans (h1.other y hy), by rw [h2.self, h1.self]⟩

theorem setStatus (m : Mem) (p : SymRef) (st : Status) :
    SymStatusOnly m (m.modSym p fun y => { y with status := st }) p :=
  ⟨rfl, fun y hy => by simp [hy], by simp⟩

theorem statuses (h : SymStatusOnly m m1 p) : SymStatusesOnly m m1 := fun y => by
  by_cases hy : y = p
  · subst hy; exact h.self
  · rw [h.other y hy]

end SymStatusOnly

/-! ## シンボルを比べる -/

theorem checkSymbolSections_ok {m m' : Mem} {p q : SymRef} (h : checkSymbolSections m p q = .ok m') :
    SymStatusOnly m m' p := by
  unfold checkSymbolSections changedSections at h
  split at h
  · split_ifs at h
    · split at h
      · split_ifs at h
        cases h; exact .setStatus m p _
      · cases h
    · cases h; exact .refl m p
  · cases h; exact .refl m p

theorem compareCorrelatedSymbol_ok {m m' : Mem} {p q : SymRef} (h : xspliceCompareCorrelatedSymbol m p q = .ok m') :
    SymStatusOnly m m' p ∧
      ((m.sym p).sym.stShndx = SHN_UNDEF ∨ (m.sym p).sym.stShndx = SHN_ABS → (m'.sym p).status = .same) := by
  dsimp only [xspliceCompareCorrelatedSymbol] at h
  split_ifs at h with h1 h2 h3
  all_goals obtain ⟨m1, hm1, h⟩ := bind_eq_ok.mp h
  · cases h
  · cases h; exact ⟨(checkSymbolSections_ok hm1).trans (.setStatus m1 p _), fun _ => by simp⟩
  · cases h; exact ⟨checkSymbolSections_ok hm1, fun h => absurd h h3⟩

/-- §4.2 の、シンボル `y` を比べた結果：対応がなければ `NEW`、対応があって `SHN_UNDEF` か `SHN_ABS` なら `SAME`。
対応と `st_shndx` は `m0` で、状態は `m` で読む。 -/
structure SymbolCompared (m0 m : Mem) (y : SymRef) : Prop where
  untwinnedNew : (m0.sym y).twin = none → (m.sym y).status = .new
  undefSame : (m0.sym y).twin.isSome → (m0.sym y).sym.stShndx = SHN_UNDEF ∨ (m0.sym y).sym.stShndx = SHN_ABS →
    (m.sym y).status = .same

theorem SymbolCompared.of_eq {m0 m0' m m' : Mem} {y : SymRef} (h : SymbolCompared m0 m y)
    (htwin : (m0'.sym y).twin = (m0.sym y).twin) (hsym : (m0'.sym y).sym = (m0.sym y).sym)
    (hstatus : (m'.sym y).status = (m.sym y).status) : SymbolCompared m0' m' y :=
  ⟨fun ht => hstatus ▸ h.untwinnedNew (htwin ▸ ht),
   fun ht hs => hstatus ▸ h.undefSame (htwin ▸ ht) (hsym ▸ hs)⟩

theorem SymStatusesOnly.twin {m m' : Mem} (h : SymStatusesOnly m m') (y : SymRef) :
    (m'.sym y).twin = (m.sym y).twin := by
  rw [h y]

theorem SymStatusesOnly.elfSym {m m' : Mem} (h : SymStatusesOnly m m') (y : SymRef) :
    (m'.sym y).sym = (m.sym y).sym := by
  rw [h y]

theorem compareSymbol_ok {m m' : Mem} {p : SymRef} (h : compareSymbol m p = .ok m') :
    SymStatusOnly m m' p ∧ SymbolCompared m m' p := by
  unfold compareSymbol at h
  split at h
  · next q hq =>
    obtain ⟨hs, hsame⟩ := compareCorrelatedSymbol_ok h
    exact ⟨hs, fun h => (by rw [hq] at h; cases h), fun _ => hsame⟩
  · next hq =>
    cases h
    exact ⟨.setStatus m p _, fun _ => by simp, fun h => (by rw [hq] at h; cases h)⟩

/-- `xsplice_compare_symbols` の後、列のどのシンボルも §4.2 のとおりに比べてあり、列にないシンボルとセクションは
変わらない。 -/
theorem foldlM_compareSymbol :
    ∀ (l : List SymRef) (m m' : Mem), l.foldlM compareSymbol m = .ok m' →
      m'.sec = m.sec ∧ (∀ y, y ∉ l → m'.sym y = m.sym y) ∧ SymStatusesOnly m m' ∧ ∀ y ∈ l, SymbolCompared m m' y
  | [], _, _, h => by cases h; exact ⟨rfl, fun _ _ => rfl, fun _ => rfl, fun _ h => nomatch h⟩
  | p :: l, m, m', h => by
    rw [List.foldlM_cons, bind_eq_ok] at h
    obtain ⟨m1, h1, h2⟩ := h
    obtain ⟨hs, hc⟩ := compareSymbol_ok h1
    obtain ⟨hsec, hout, hst, hin⟩ := foldlM_compareSymbol l m1 m' h2
    have hst0 := hs.statuses
    refine ⟨hsec.trans hs.sec, fun y hy => ?_, hst0.trans hst, fun y hy => ?_⟩
    · rw [hout y (fun h => hy (List.mem_cons_of_mem p h)), hs.other y (fun h => hy (h ▸ List.mem_cons_self p l))]
    · by_cases hyl : y ∈ l
      · exact (hin y hyl).of_eq (hst0.twin y).symm (hst0.elfSym y).symm rfl
      · obtain rfl : y = p := (List.mem_cons.mp hy).resolve_right hyl
        exact hc.of_eq rfl rfl (by rw [hout y hyl])

/-! ## 片方の側にしかないリロケーションのセクション -/

/-- 中身の同じ `.text.f` が base（セクション 0）と patched（セクション 1）にあり、patched にだけ
`.rela.text.f`（セクション 2）がある入力。シンボルは base の `f` と `.text.f`（0、1）、patched の `f` と
`.text.f`（2、3）、参照先の `x`（4）。 -/
def relaOnlyExample : Mem := Mem.ofLists
  [{ name := ".text.f", sh := { shType := SHT_PROGBITS, shFlags := 6, shSize := 4 },
     data := { dBuf := [0x48, 0xc7, 0, 0], dSize := 4 }, sym := some 0, secsym := some 1 },
   { name := ".text.f", sh := { shType := SHT_PROGBITS, shFlags := 6, shSize := 4 },
     data := { dBuf := [0x48, 0xc7, 0, 0], dSize := 4 }, sym := some 2, secsym := some 3, rela := some 2 },
   { name := ".rela.text.f", sh := { shType := SHT_RELA, shSize := 24, shEntsize := 24 },
     data := { dBuf := [], dSize := 24 }, base := some 1,
     relas := [{ sym := 4, type := R_X86_64_32S, offset := 2 }] }]
  [{ name := "f", type := STT_FUNC, bind := STB_GLOBAL, sec := some 0, sym := { stInfo := 18, stSize := 4, stShndx := 1 } },
   { name := ".text.f", type := STT_SECTION, sec := some 0, sym := { stInfo := 3, stShndx := 1 } },
   { name := "f", type := STT_FUNC, bind := STB_GLOBAL, sec := some 1, sym := { stInfo := 18, stSize := 4, stShndx := 1 } },
   { name := ".text.f", type := STT_SECTION, sec := some 1, sym := { stInfo := 3, stShndx := 1 } },
   { name := "x", type := STT_OBJECT, bind := STB_GLOBAL, sym := { stInfo := 17 } }]

/-- `relaOnlyExample` の base。 -/
def relaOnlyBase : Elf := { sections := [0], symbols := [0, 1] }

/-- `relaOnlyExample` の patched：`.text.f` が `.rela.text.f` の前にある。 -/
def relaOnlyPatched : Elf := { sections := [1, 2], symbols := [2, 3, 4] }

/-- `relaOnlyExample` の patched：`.rela.text.f` が `.text.f` の前にある。 -/
def relaOnlyPatchedSwapped : Elf := { sections := [2, 1], symbols := [2, 3, 4] }

/-- patched の `f` は、セクションの順によって `NEW` か `SAME` になり、どちらの順でも `CHANGED` にならない。 -/
theorem compare_misses_one_sided_relocation_section :
    (do
      let m := xspliceCorrelateElfs relaOnlyExample relaOnlyBase relaOnlyPatched
      xspliceCompareCorrelatedElements m relaOnlyPatched).toOption.map (fun (m : Mem) => (m.sym 2).status) =
      some .new ∧
    (do
      let m := xspliceCorrelateElfs relaOnlyExample relaOnlyBase relaOnlyPatchedSwapped
      xspliceCompareCorrelatedElements m relaOnlyPatchedSwapped).toOption.map (fun (m : Mem) => (m.sym 2).status) =
      some .same := by
  decide

/-! ## 比較の後のシンボルの状態 -/

theorem compareSection_statuses {m m' : Mem} {p : SecRef} (h : compareSection m p = .ok m') : SymStatusesOnly m m' := by
  dsimp only [compareSection] at h
  split at h <;> obtain ⟨_, -, h⟩ := bind_eq_ok.mp h <;> cases h <;> exact fun _ => rfl

theorem syncSymbolStatus_statuses (m : Mem) (p : SecRef) : SymStatusesOnly m (syncSymbolStatus m p) := by
  dsimp only [syncSymbolStatus]
  split
  · split_ifs
    exacts [.setStatus _ _ _, fun _ => rfl]
  · exact fun _ => rfl

/-- `xsplice_compare_correlated_elements` が成功すれば、どのシンボルも `status` のほかは変わらず、kelf の対応のない
シンボルは `NEW` に、対応があって `SHN_UNDEF` か `SHN_ABS` のシンボルは `SAME` になる（§4.2）。 -/
theorem compare_correlated_elements_symbols {m m' : Mem} {kelf : Elf}
    (h : xspliceCompareCorrelatedElements m kelf = .ok m') :
    SymStatusesOnly m m' ∧ ∀ y ∈ kelf.symbols, SymbolCompared m m' y := by
  simp only [xspliceCompareCorrelatedElements, xspliceCompareSections, bind_eq_ok, pure_eq_ok] at h
  obtain ⟨m1, ⟨m0, hsecs, hm1⟩, hsyms⟩ := h
  obtain rfl := Except.ok.inj hm1
  have hst : SymStatusesOnly m (kelf.sections.foldl syncSymbolStatus m0) :=
    (SymStatusesOnly.foldlM (fun _ _ _ h => compareSection_statuses h) _ _ _ hsecs).trans
      (SymStatusesOnly.foldl syncSymbolStatus_statuses _ _)
  obtain ⟨-, -, hst', hcmp⟩ := foldlM_compareSymbol _ _ _ hsyms
  exact ⟨hst.trans hst', fun y hy => (hcmp y hy).of_eq (hst.twin y).symm (hst.elfSym y).symm rfl⟩

/-- `relaOnlyExample` の比較の結果。 -/
def relaOnlyCompared : Mem :=
  match xspliceCompareCorrelatedElements (xspliceCorrelateElfs relaOnlyExample relaOnlyBase relaOnlyPatched)
      relaOnlyPatched with
  | .ok m => m
  | .error _ => relaOnlyExample

/-- 対応のない `x`（シンボル 4）は `NEW` になる。 -/
theorem rela_only_example_symbols_compared :
    SymbolCompared (xspliceCorrelateElfs relaOnlyExample relaOnlyBase relaOnlyPatched) relaOnlyCompared 4 :=
  (@compare_correlated_elements_symbols (xspliceCorrelateElfs relaOnlyExample relaOnlyBase relaOnlyPatched)
    relaOnlyCompared relaOnlyPatched rfl).2 4 (by decide)

/-! ## セクションの比較は参照の定義に一致する

`xsplice_compare_sections` の最初のループは、セクションごとに、§4.2 の言葉で書いた参照の状態を付ける。
リロケーションのセクションが `sh_size / sh_entsize` 個のリロケーションを持つなら（ローダの不変条件）、
二つのリストを並べて歩く `rela2` は、`twin` のリストの終わりを越えない。 -/

/-- ローダの不変条件：リロケーションのセクションは `sh_size / sh_entsize` 個のリロケーションを持つ。 -/
def RelaCountOk (sec : Section) : Prop :=
  isRelaSection sec = true → sec.relas.length = sec.sh.shSize / sec.sh.shEntsize

instance (sec : Section) : Decidable (RelaCountOk sec) := inferInstanceAs (Decidable (_ → _))

/-- §4.2 の、対応するセクション `sec` と `twin` が違うことの定義：大きさが違うか、`SHT_RELA` でも `SHT_NOBITS`
でもないセクションのバイトが違うか、`SHT_RELA` のセクションのリロケーションの列が、`rela_equal` で一つずつ
等しくない。 -/
def SectionsDiffer (m : Mem) (sec twin : Section) : Prop :=
  sec.sh.shSize ≠ twin.sh.shSize ∨ sec.data.dSize ≠ twin.data.dSize ∨
  (sec.sh.shType ≠ SHT_RELA ∧ sec.sh.shType ≠ SHT_NOBITS ∧
    sec.data.dBuf.take sec.data.dSize ≠ twin.data.dBuf.take twin.data.dSize) ∨
  (sec.sh.shType = SHT_RELA ∧ ¬List.Forall₂ (fun r1 r2 => relaEqual m r1 r2 = true) sec.relas twin.relas)

instance (m : Mem) (sec twin : Section) : Decidable (SectionsDiffer m sec twin) :=
  inferInstanceAs (Decidable (_ ∨ _ ∨ _ ∨ _))

/-- セクションの状態の参照の定義：`twin` がなければ `NEW`、あって違えば `CHANGED`、そうでなければ `SAME`。 -/
def referenceSectionStatus (m : Mem) (sec : Section) : Status :=
  match sec.twin with
  | none => .new
  | some t => if SectionsDiffer m sec (m.sec t) then .changed else .same

/-- 長さの等しい二つのリストを並べて歩くと、一つずつ `rela_equal` で等しいときに限って `SAME` になる。 -/
theorem compareRelaWalk_eq (m : Mem) :
    ∀ (l1 l2 : List Rela), l1.length = l2.length →
      compareRelaWalk m l1 l2 = .ok (if List.Forall₂ (fun r1 r2 => relaEqual m r1 r2 = true) l1 l2 then .same else .changed)
  | [], [], _ => by simp [compareRelaWalk]
  | r1 :: l1, r2 :: l2, h => by
    have ih := compareRelaWalk_eq m l1 l2 (by simpa using h)
    by_cases he : relaEqual m r1 r2 = true <;> simp [compareRelaWalk, he, ih]

/-- `m'` は、セクションの `status` だけを書き換えたもの。 -/
structure SecStatusesOnly (m m' : Mem) : Prop where
  sym : m'.sym = m.sym
  sec : ∀ s, { m'.sec s with status := .new } = { m.sec s with status := .new }

namespace SecStatusesOnly

variable {m m' : Mem}

theorem refl (m : Mem) : SecStatusesOnly m m := ⟨rfl, fun _ => rfl⟩

theorem setStatus (h : SecStatusesOnly m m') (p : SecRef) (st : Status) :
    SecStatusesOnly m (m'.modSec p fun x => { x with status := st }) :=
  ⟨h.sym, fun s => by
    by_cases hs : s = p
    · subst hs; rw [Mem.modSec_sec_self]; exact h.sec s
    · rw [Mem.modSec_sec_of_ne _ _ hs]; exact h.sec s⟩

theorem sh (h : SecStatusesOnly m m') (s : SecRef) : (m'.sec s).sh = (m.sec s).sh := by
  have := congrArg Section.sh (h.sec s); exact this

theorem data (h : SecStatusesOnly m m') (s : SecRef) : (m'.sec s).data = (m.sec s).data := by
  have := congrArg Section.data (h.sec s); exact this

theorem relas (h : SecStatusesOnly m m') (s : SecRef) : (m'.sec s).relas = (m.sec s).relas := by
  have := congrArg Section.relas (h.sec s); exact this

theorem twin (h : SecStatusesOnly m m') (s : SecRef) : (m'.sec s).twin = (m.sec s).twin := by
  have := congrArg Section.twin (h.sec s); exact this

theorem relaEqual_eq (h : SecStatusesOnly m m') : relaEqual m' = relaEqual m := by
  have hsym : ∀ s, (m'.sec s).sym = (m.sec s).sym := fun s => by
    have := congrArg Section.sym (h.sec s); exact this
  funext r1 r2
  simp only [relaEqual, isSpecialStatic, h.sym, hsym]

theorem relaCountOk (h : SecStatusesOnly m m') {s : SecRef} (hs : RelaCountOk (m.sec s)) : RelaCountOk (m'.sec s) := by
  unfold RelaCountOk isRelaSection at hs ⊢
  rwa [h.sh, h.relas]

theorem sectionsDiffer_iff (h : SecStatusesOnly m m') (s t : SecRef) :
    SectionsDiffer m' (m'.sec s) (m'.sec t) ↔ SectionsDiffer m (m.sec s) (m.sec t) := by
  unfold SectionsDiffer
  rw [h.sh, h.sh, h.data, h.data, h.relas, h.relas, h.relaEqual_eq]

end SecStatusesOnly

theorem xspliceCompareCorrelatedSection_eq (m : Mem) (sec twin : Section) :
    xspliceCompareCorrelatedSection m sec twin =
      if sec.sh.shType ≠ twin.sh.shType ∨ sec.sh.shFlags ≠ twin.sh.shFlags ∨ sec.sh.shAddr ≠ twin.sh.shAddr ∨
          sec.sh.shAddralign ≠ twin.sh.shAddralign ∨ sec.sh.shEntsize ≠ twin.sh.shEntsize then
        .error (.diffFatal (sec.name ++ " section header details differ"))
      else if sec.sh.shSize ≠ twin.sh.shSize ∨ sec.data.dSize ≠ twin.data.dSize then .ok .changed
      else if isRelaSection sec then xspliceCompareCorrelatedRelaSection m sec twin
      else .ok (xspliceCompareCorrelatedNonrelaSection sec twin) := by
  dsimp only [xspliceCompareCorrelatedSection]
  split_ifs <;> rfl

/-- `xsplice_compare_correlated_section` は、`DIFF_FATAL` で止まるか、参照の定義どおりの状態を返す。 -/
theorem compareCorrelatedSection_spec (m : Mem) {sec twin : Section} (hs : RelaCountOk sec) (ht : RelaCountOk twin) :
    (∃ msg, xspliceCompareCorrelatedSection m sec twin = .error (.diffFatal msg)) ∨
    xspliceCompareCorrelatedSection m sec twin = .ok (if SectionsDiffer m sec twin then .changed else .same) := by
  rw [xspliceCompareCorrelatedSection_eq]
  by_cases hh : sec.sh.shType ≠ twin.sh.shType ∨ sec.sh.shFlags ≠ twin.sh.shFlags ∨ sec.sh.shAddr ≠ twin.sh.shAddr ∨
      sec.sh.shAddralign ≠ twin.sh.shAddralign ∨ sec.sh.shEntsize ≠ twin.sh.shEntsize
  · exact .inl ⟨_, if_pos hh⟩
  right
  rw [if_neg hh]
  simp only [not_or, not_not] at hh
  obtain ⟨htype, -, -, -, hent⟩ := hh
  by_cases hsz : sec.sh.shSize ≠ twin.sh.shSize ∨ sec.data.dSize ≠ twin.data.dSize
  · rw [if_pos hsz, if_pos (by unfold SectionsDiffer; tauto)]
  rw [if_neg hsz]
  simp only [not_or, not_not] at hsz
  by_cases hr : isRelaSection sec = true
  · -- 長さの等しいリストを並べて歩く
    have hrt : isRelaSection twin = true := by simpa [isRelaSection, htype] using hr
    have hlen : sec.relas.length = twin.relas.length := by rw [hs hr, ht hrt, hsz.1, hent]
    have hsd : SectionsDiffer m sec twin ↔
        ¬List.Forall₂ (fun r1 r2 => relaEqual m r1 r2 = true) sec.relas twin.relas := by
      have : sec.sh.shType = SHT_RELA := by simpa [isRelaSection] using hr
      simp [SectionsDiffer, hsz, this]
    rw [if_pos hr, xspliceCompareCorrelatedRelaSection, compareRelaWalk_eq m _ _ hlen]
    by_cases hf : List.Forall₂ (fun r1 r2 => relaEqual m r1 r2 = true) sec.relas twin.relas <;> simp [hsd, hf]
  · -- バイトを比べる
    have hsd : SectionsDiffer m sec twin ↔ sec.sh.shType ≠ SHT_NOBITS ∧
        sec.data.dBuf.take sec.data.dSize ≠ twin.data.dBuf.take sec.data.dSize := by
      have : sec.sh.shType ≠ SHT_RELA := by simpa [isRelaSection] using hr
      simp [SectionsDiffer, hsz, this]
    rw [if_neg hr, xspliceCompareCorrelatedNonrelaSection]
    by_cases hd : sec.sh.shType ≠ SHT_NOBITS ∧ sec.data.dBuf.take sec.data.dSize ≠ twin.data.dBuf.take sec.data.dSize <;>
      simp_all [memEq]

theorem compareSection_spec {m mk : Mem} {p : SecRef} (hk : SecStatusesOnly m mk)
    (hp : RelaCountOk (m.sec p)) (ht : ∀ t ∈ (m.sec p).twin, RelaCountOk (m.sec t)) :
    (∃ msg, compareSection mk p = .error (.diffFatal msg)) ∨
    compareSection mk p = .ok (mk.modSec p fun x => { x with status := referenceSectionStatus m (m.sec p) }) := by
  dsimp only [compareSection, referenceSectionStatus]
  rw [hk.twin p]
  cases htw : (m.sec p).twin with
  | none => exact .inr rfl
  | some t =>
    rcases compareCorrelatedSection_spec mk (hk.relaCountOk hp) (hk.relaCountOk (ht t htw)) with ⟨msg, h⟩ | h
    · exact .inl ⟨msg, by simp only [h, error_bind]⟩
    · right
      simp only [h, ok_bind, hk.sectionsDiffer_iff, pure_eq_ok]

/-- `xsplice_compare_sections` の最初のループは、`DIFF_FATAL` で止まるか、セクションの状態だけを書き換え、`l` の
どのセクションにも参照の状態を付ける。 -/
theorem foldlM_compareSection {m : Mem} :
    ∀ (l : List SecRef) (mk : Mem), SecStatusesOnly m mk →
      (∀ p ∈ l, RelaCountOk (m.sec p) ∧ ∀ t ∈ (m.sec p).twin, RelaCountOk (m.sec t)) →
      (∃ msg, l.foldlM compareSection mk = .error (.diffFatal msg)) ∨
      ∃ m', l.foldlM compareSection mk = .ok m' ∧ SecStatusesOnly m m' ∧
        ∀ p, (m'.sec p).status = if p ∈ l then referenceSectionStatus m (m.sec p) else (mk.sec p).status
  | [], mk, hk, _ => .inr ⟨mk, rfl, hk, fun _ => rfl⟩
  | q :: l, mk, hk, hl => by
    obtain ⟨hq, ht⟩ := hl q (List.mem_cons_self q l)
    rcases compareSection_spec hk hq ht with ⟨msg, h⟩ | h
    · exact .inl ⟨msg, by rw [List.foldlM_cons, h, error_bind]⟩
    rcases foldlM_compareSection l _ (hk.setStatus q _) (fun p hp => hl p (List.mem_cons_of_mem q hp)) with
      ⟨msg, h'⟩ | ⟨m', h', hk', hst⟩
    · exact .inl ⟨msg, by rw [List.foldlM_cons, h, ok_bind, h']⟩
    refine .inr ⟨m', by rw [List.foldlM_cons, h, ok_bind, h'], hk', fun p => ?_⟩
    rw [hst p]
    by_cases hpq : p = q
    · subst hpq; simp
    · by_cases hp : p ∈ l <;> simp [hp, hpq, Mem.modSec_sec_of_ne _ _ hpq]

theorem syncSymbolStatus_sec (m : Mem) (p : SecRef) : (syncSymbolStatus m p).sec = m.sec := by
  dsimp only [syncSymbolStatus]
  split
  · split_ifs <;> rfl
  · rfl

/-- ローダの不変条件のもとで、`xsplice_compare_sections` は `DIFF_FATAL` で止まるか、`seclist` のどのセクションにも
参照の定義どおりの状態を付けて終わる：`twin` がなければ `NEW`、あって違えば `CHANGED`、そうでなければ `SAME`。
未定義動作（`rela2` が `twin` のリストの終わりを越えること）は起きない。 -/
theorem compare_sections_reference {m : Mem} {seclist : List SecRef}
    (hcount : ∀ p ∈ seclist, RelaCountOk (m.sec p) ∧ ∀ t ∈ (m.sec p).twin, RelaCountOk (m.sec t)) :
    (∃ msg, xspliceCompareSections m seclist = .error (.diffFatal msg)) ∨
    ∃ m', xspliceCompareSections m seclist = .ok m' ∧
      ∀ p ∈ seclist, (m'.sec p).status = referenceSectionStatus m (m.sec p) := by
  rcases foldlM_compareSection seclist m (.refl m) hcount with ⟨msg, h⟩ | ⟨m1, h, -, hst⟩
  · exact .inl ⟨msg, by rw [xspliceCompareSections, h, error_bind]⟩
  refine .inr ⟨_, by rw [xspliceCompareSections, h, ok_bind, pure_eq_ok], fun p hp => ?_⟩
  rw [Mem.foldl_sec_eq syncSymbolStatus_sec, hst p, if_pos hp]

/-- `relaOnlyExample` を対応づけたもの。 -/
def relaOnlyCorrelated : Mem := xspliceCorrelateElfs relaOnlyExample relaOnlyBase relaOnlyPatched

/-- `relaOnlyExample` を対応づけた後：patched の `.rela.text.f` は一つのリロケーションを持つ。 -/
theorem rela_only_example_reference :
    (∀ p ∈ relaOnlyPatched.sections, RelaCountOk (relaOnlyCorrelated.sec p) ∧
      ∀ t ∈ (relaOnlyCorrelated.sec p).twin, RelaCountOk (relaOnlyCorrelated.sec t)) ∧
    ((∃ msg, xspliceCompareSections relaOnlyCorrelated relaOnlyPatched.sections = .error (.diffFatal msg)) ∨
      ∃ m', xspliceCompareSections relaOnlyCorrelated relaOnlyPatched.sections = .ok m' ∧
        ∀ p ∈ relaOnlyPatched.sections,
          (m'.sec p).status = referenceSectionStatus relaOnlyCorrelated (relaOnlyCorrelated.sec p)) :=
  ⟨by decide, compare_sections_reference (by decide)⟩

end XspliceDiff

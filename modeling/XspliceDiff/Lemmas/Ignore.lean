import XspliceDiff.Lemmas.Prepare
import XspliceDiff.Lemmas.Closure

/-!
# 無視する関数は `main` の終わりまで `SAME` のまま（§4.3）

`XSPLICE_IGNORE_FUNCTION()` は、`.rela.xsplice.ignore.functions` のリロケーションで関数を指す。
`xsplice_mark_ignored_functions_same` は、比べた後で、指された関数を `SAME` にする。その後の段は、シンボルの
状態に触れないか `SAME` にするだけで、セクションの名前と `rela` のリンクを変えず、フックのものでない
リロケーションのセクションの参照先を増やさない。`IgnoreFrame` はこの三つをまとめたもので、`main` のどの段も
それを満たす。`xsplice_create_patches_sections` は `CHANGED` の関数にだけ項目を作るので、無視した関数は
パッチの表に現れない。
-/

namespace XspliceDiff

variable {m m' m'' : Mem} {kelf e : Elf}

/-! ## `SAME` のままのシンボル -/

/-- `m'` は、`m` で `SAME` のシンボルを `SAME` のままにする。 -/
def SameStays (m m' : Mem) : Prop := ∀ y, (m.sym y).status = .same → (m'.sym y).status = .same

namespace SameStays

theorem refl (m : Mem) : SameStays m m := fun _ h => h

theorem trans (h1 : SameStays m m') (h2 : SameStays m' m'') : SameStays m m'' := fun y h => h2 y (h1 y h)

theorem of_status (h : ∀ y, (m'.sym y).status = (m.sym y).status) : SameStays m m' := fun y hy => (h y).trans hy

theorem modSym {f : Symbol → Symbol} (p : SymRef) (hf : ∀ z : Symbol, z.status = .same → (f z).status = .same) :
    SameStays m (m.modSym p f) := fun y hy => by
  by_cases h : y = p
  · subst h; simpa using hf _ hy
  · simpa [h] using hy

theorem modSec {f : Section → Section} (p : SecRef) : SameStays m (m.modSec p f) := of_status fun _ => rfl

end SameStays

/-! ## セクションの名前、リンク、リロケーションを変えない書き換え -/

/-- `m'` は、どのセクションの名前、`rela` のリンク、リロケーションの列も変えず、`SAME` のシンボルを
`SAME` のままにする。 -/
structure Kept (m m' : Mem) : Prop where
  sec : ∀ q, (m'.sec q).name = (m.sec q).name ∧ (m'.sec q).rela = (m.sec q).rela ∧
    (m'.sec q).relas = (m.sec q).relas
  same : SameStays m m'

namespace Kept

theorem refl (m : Mem) : Kept m m := ⟨fun _ => ⟨rfl, rfl, rfl⟩, .refl m⟩

theorem trans (h1 : Kept m m') (h2 : Kept m' m'') : Kept m m'' :=
  ⟨fun q => ⟨((h2.sec q).1.trans (h1.sec q).1), ((h2.sec q).2.1.trans (h1.sec q).2.1),
    ((h2.sec q).2.2.trans (h1.sec q).2.2)⟩, h1.same.trans h2.same⟩

theorem of_grows (h : m.Grows m') : Kept m m' :=
  ⟨fun q => ⟨by have := congrArg Section.name (h.sec q); exact this, h.rela q, h.relas q⟩, .of_status h.symStatus⟩

theorem modSec {f : Section → Section} (p : SecRef) (hf : ∀ x, (f x).name = x.name ∧ (f x).rela = x.rela ∧
    (f x).relas = x.relas) : Kept m (m.modSec p f) :=
  ⟨fun q => by by_cases hq : q = p <;> simp [hq, hf], .modSec p⟩

theorem modSym {f : Symbol → Symbol} (p : SymRef) (hf : ∀ z : Symbol, z.status = .same → (f z).status = .same) :
    Kept m (m.modSym p f) :=
  ⟨fun _ => ⟨rfl, rfl, rfl⟩, .modSym p hf⟩

theorem foldl {β : Type} {f : Mem → β → Mem} (hf : ∀ (m : Mem) x, Kept m (f m x)) :
    ∀ (l : List β) (m : Mem), Kept m (l.foldl f m)
  | [], m => refl m
  | x :: l, m => (hf m x).trans (foldl hf l (f m x))

theorem foldl_fst {β : Type} {f : Mem × Nat → β → Mem × Nat} (hf : ∀ a x, Kept a.1 (f a x).1) :
    ∀ (l : List β) (a : Mem × Nat), Kept a.1 (l.foldl f a).1
  | [], a => refl a.1
  | x :: l, a => (hf a x).trans (foldl_fst hf l (f a x))

end Kept

/-! ## 無視の指示を保つ書き換え -/

/-- `m'` は、`kelf` のセクションの名前と `rela` のリンクを変えず、フックのものでないセクションのリロケーションの
参照先を増やさず、`kelf` の `SAME` のシンボルを `SAME` のままにする。 -/
structure IgnoreFrame (kelf : Elf) (m m' : Mem) : Prop where
  name : ∀ q ∈ kelf.sections, (m'.sec q).name = (m.sec q).name
  rela : ∀ q ∈ kelf.sections, (m'.sec q).rela = (m.sec q).rela
  targets : ∀ q ∈ kelf.sections, hookSectionNames.contains (m.sec q).name = false →
    ∀ x ∈ (m'.sec q).relas, ∃ x0 ∈ (m.sec q).relas, x.sym = x0.sym
  same : ∀ y ∈ kelf.symbols, (m.sym y).status = .same → (m'.sym y).status = .same

namespace IgnoreFrame

theorem refl (m : Mem) : IgnoreFrame kelf m m :=
  ⟨fun _ _ => rfl, fun _ _ => rfl, fun _ _ _ x hx => ⟨x, hx, rfl⟩, fun _ _ h => h⟩

theorem trans (h1 : IgnoreFrame kelf m m') (h2 : IgnoreFrame kelf m' m'') : IgnoreFrame kelf m m'' where
  name q hq := (h2.name q hq).trans (h1.name q hq)
  rela q hq := (h2.rela q hq).trans (h1.rela q hq)
  targets q hq hn x hx := by
    obtain ⟨x1, hx1, h21⟩ := h2.targets q hq (by rw [h1.name q hq]; exact hn) x hx
    obtain ⟨x0, hx0, h10⟩ := h1.targets q hq hn x1 hx1
    exact ⟨x0, hx0, h21.trans h10⟩
  same y hy h := h2.same y hy (h1.same y hy h)

theorem of_kept (h : Kept m m') : IgnoreFrame kelf m m' :=
  ⟨fun q _ => (h.sec q).1, fun q _ => (h.sec q).2.1, fun q _ _ x hx => ⟨x, (h.sec q).2.2 ▸ hx, rfl⟩,
   fun y _ hy => h.same y hy⟩

theorem of_eq (hsec : ∀ q ∈ kelf.sections, m'.sec q = m.sec q) (hsym : ∀ y ∈ kelf.symbols, m'.sym y = m.sym y) :
    IgnoreFrame kelf m m' :=
  ⟨fun q hq => by rw [hsec q hq], fun q hq => by rw [hsec q hq], fun q hq _ x hx => ⟨x, hsec q hq ▸ hx, rfl⟩,
   fun y hy h => by rw [hsym y hy]; exact h⟩

theorem setRelas (p : SecRef) (relas : List Rela)
    (hsub : hookSectionNames.contains (m.sec p).name = false → ∀ x ∈ relas, ∃ x0 ∈ (m.sec p).relas, x.sym = x0.sym) :
    IgnoreFrame kelf m (m.modSec p fun s => { s with relas := relas }) where
  name q _ := by by_cases hq : q = p <;> simp [hq]
  rela q _ := by by_cases hq : q = p <;> simp [hq]
  targets q _ hn x hx := by
    by_cases hq : q = p
    · subst hq; rw [Mem.modSec_sec_self] at hx; exact hsub hn x hx
    · rw [Mem.modSec_sec_of_ne _ _ hq] at hx; exact ⟨x, hx, rfl⟩
  same _ _ h := h

theorem foldlM {β : Type} {f : Mem → β → Except Abort Mem} {l : List β}
    (hf : ∀ m, ∀ x ∈ l, ∀ m', f m x = .ok m' → IgnoreFrame kelf m m') (h : l.foldlM f m = .ok m') :
    IgnoreFrame kelf m m' :=
  @foldlM_mem_invariant _ _ _ (fun m1 => IgnoreFrame kelf m m1) l
    (fun _ x hx _ h1 h2 => h1.trans (hf _ x hx _ h2)) _ _ (refl m) h

end IgnoreFrame

/-! ## 無視の指示と比べた後の段 -/

/-- `.xsplice.ignore.functions` のリロケーションが指す関数は、どれも `SAME` である。 -/
def IgnoredSame (m : Mem) (kelf : Elf) : Prop :=
  ∀ p r, findSectionByName m kelf.sections ".xsplice.ignore.functions" = some p → (m.sec p).rela = some r →
    ∀ x ∈ (m.sec r).relas, (m.sym x.sym).status = .same

theorem findSectionByName_congr {l : List SecRef} (h : ∀ q ∈ l, (m'.sec q).name = (m.sec q).name) (name : String) :
    findSectionByName m' l name = findSectionByName m l name := by
  induction l with
  | nil => rfl
  | cons q l ih =>
    simp only [findSectionByName, List.find?_cons, h q (List.mem_cons_self q l)]
    split
    · rfl
    · exact ih fun q' hq' => h q' (List.mem_cons_of_mem q hq')

theorem markFunctionSame_same (m : Mem) (p : SymRef) (s : SecRef) :
    SameStays m (markFunctionSame m p s) ∧ ((markFunctionSame m p s).sym p).status = .same := by
  have h1 : SameStays m ((m.modSym p fun y => { y with status := .same }).modSec s fun x => { x with status := .same }) :=
    (SameStays.modSym (f := fun y => { y with status := .same }) p fun _ _ => rfl).trans (.modSec s)
  have hrest : SameStays ((m.modSym p fun y => { y with status := .same }).modSec s fun x => { x with status := .same })
      (markFunctionSame m p s) := by
    unfold markFunctionSame
    dsimp only
    split <;> split
    all_goals first
      | exact (SameStays.modSym _ (by intros; rfl)).trans (.modSec _)
      | exact .modSym _ (by intros; rfl)
      | exact .modSec _
      | exact .refl _
  exact ⟨h1.trans hrest, hrest p (by simp)⟩

/-- `xsplice_mark_ignored_functions_same` が成功すれば、`.xsplice.ignore.functions` のリロケーションが指す関数は、
どれも `SAME` である。 -/
theorem markIgnoredFunctionsSame_ignoredSame (h : xspliceMarkIgnoredFunctionsSame m kelf = .ok m') :
    IgnoredSame m' kelf := by
  have hk := (markIgnoredFunctionsSame_frame h).keeps
  intro p r hp hr
  rw [findSectionByName_congr (fun q _ => hk.shape.name q)] at hp
  rw [hk.shape.rela] at hr
  rw [hk.relas]
  dsimp only [xspliceMarkIgnoredFunctionsSame] at h
  rw [hp] at h
  dsimp only at h
  rw [hr, deref_some, ok_bind] at h
  -- ループの不変条件：処理を終えたリロケーションの参照先は `SAME`
  refine @foldlM_rest_invariant _ _ _ (fun m1 rest => ∀ x ∈ (m.sec r).relas, x ∉ rest → (m1.sym x.sym).status = .same)
    (m.sec r).relas (fun m1 x0 rest m2 _ hinv h => ?_) _ _ _ (List.suffix_refl _) (fun _ hx hn => absurd hx hn) h
    |> fun h x hx => h x hx (List.not_mem_nil x)
  split at h
  · rename_i s _
    split_ifs at h
    · cases h
    rw [pure_bind] at h
    cases h
    obtain ⟨hst, hself⟩ := markFunctionSame_same m1 x0.sym s
    intro x hx hn
    by_cases hx0 : x = x0
    · subst hx0; exact hself
    · exact hst _ (hinv x hx fun h => (List.mem_cons.mp h).elim hx0 hn)
  · cases h

/-- 無視の指示を保つ書き換えの後の `.rela.xsplice.ignore.functions` のリロケーションは、書き換えの前にもあった
参照先を指す（`.rela.xsplice.ignore.functions` はフックのセクションでない）。 -/
theorem IgnoreFrame.trace (hP : PrepInv m kelf) (hf : IgnoreFrame kelf m m') {p r : SecRef}
    (hp : findSectionByName m' kelf.sections ".xsplice.ignore.functions" = some p) (hr : (m'.sec p).rela = some r)
    {x : Rela} (hx : x ∈ (m'.sec r).relas) :
    findSectionByName m kelf.sections ".xsplice.ignore.functions" = some p ∧ (m.sec p).rela = some r ∧
      ∃ x0 ∈ (m.sec r).relas, x.sym = x0.sym ∧ x0.sym ∈ kelf.symbols := by
  rw [findSectionByName_congr hf.name] at hp
  have hpK := List.mem_of_find?_eq_some hp
  rw [hf.rela p hpK] at hr
  obtain ⟨hrK, hrb⟩ := hP.links.relaOf p hpK r hr
  have hpname : (m.sec p).name = ".xsplice.ignore.functions" := by simpa using List.find?_some hp
  have hhook : hookSectionNames.contains (m.sec r).name = false := by rw [hP.named r hrK p hrb, hpname]; decide
  obtain ⟨x0, hx0, hsym⟩ := hf.targets r hrK hhook x hx
  exact ⟨hp, hr, x0, hx0, hsym, hP.closed.relas r hrK x0 hx0⟩

theorem IgnoredSame.frame (hi : IgnoredSame m kelf) (hP : PrepInv m kelf) (hf : IgnoreFrame kelf m m') :
    IgnoredSame m' kelf := by
  intro p r hp hr x hx
  obtain ⟨hp0, hr0, x0, hx0, hsym, hmem⟩ := hf.trace hP hp hr hx
  rw [hsym]
  exact hf.same _ hmem (hi p r hp0 hr0 x0 hx0)

/-! ## 比べた後の段はどれも無視の指示を保つ -/

theorem markIgnoredSectionsSame_kept (m : Mem) (kelf : Elf) : Kept m (xspliceMarkIgnoredSectionsSame m kelf) := by
  refine Kept.foldl (fun m p => ?_) _ _
  unfold markIgnoredSectionSame
  split_ifs
  · exact .refl m
  · dsimp only
    refine Kept.trans ?_ (Kept.foldl (fun m y => ?_) _ _)
    · split
      all_goals first | refine Kept.trans ?_ (.modSec _ (by intro; exact ⟨rfl, rfl, rfl⟩)) | skip
      all_goals split
      all_goals first | refine Kept.trans ?_ (.modSym _ (by intros; rfl)) | skip
      all_goals exact .modSec p (by intro; exact ⟨rfl, rfl, rfl⟩)
    · dsimp only
      split_ifs
      exacts [.modSym _ (by intros; rfl), .refl _]

theorem markConstantLabelsSame_kept (m : Mem) (kelf : Elf) : Kept m (xspliceMarkConstantLabelsSame m kelf) :=
  Kept.foldl (fun m y => by split_ifs; exacts [.modSym _ (by intros; rfl), .refl _]) _ _

theorem includeDebugSections_ignoreFrame (h : xspliceIncludeDebugSections m kelf = .ok m') : IgnoreFrame e m m' := by
  dsimp only [xspliceIncludeDebugSections] at h
  obtain ⟨m1, h1, h2⟩ := bind_eq_ok.mp h
  refine (IgnoreFrame.foldlM (fun m p _ m' h => .of_kept (.of_grows ?_)) h1).trans
    (IgnoreFrame.foldlM (fun m p _ m' h => ?_) h2)
  · by_cases hd : (!isDebugSection m (m.sec p)) = true
    · rw [if_pos hd] at h; cases h; exact .refl m
    rw [if_neg hd, pure_bind] at h
    by_cases hr : isRelaSection (m.sec p) = true
    · rw [if_pos hr] at h; cases h; exact .includeSec m p
    rw [if_neg hr, pure_bind] at h
    obtain ⟨y, -, h⟩ := bind_eq_ok.mp h
    cases h
    exact (Mem.Grows.includeSec m p).trans (.includeSym _ y)
  · split_ifs at h
    · cases h; exact .refl m
    rw [pure_bind] at h
    obtain ⟨relas, hrelas, h⟩ := bind_eq_ok.mp h
    cases h
    exact .setRelas p relas fun _ x hx => ⟨x, filterM_mem hrelas x hx, rfl⟩

theorem includeHookSection_ignoreFrame {fuel : Nat} {p : SecRef} (h : includeHookSection fuel m p = .ok m') :
    IgnoreFrame kelf m m' := by
  dsimp only [includeHookSection] at h
  by_cases hn : (!hookSectionNames.contains (m.sec p).name) = true
  · rw [if_pos hn] at h; cases h; exact .refl m
  rw [if_neg hn, pure_bind] at h
  have hA : Kept m (m.includeSec p) := .of_grows (.includeSec m p)
  by_cases hr : isRelaSection (m.sec p) = true
  swap
  · rw [if_neg hr] at h
    obtain ⟨ss, -, h⟩ := bind_eq_ok.mp h
    cases h
    exact .of_kept (hA.trans (.of_grows (.includeSym _ ss)))
  rw [if_pos hr] at h
  split at h
  swap
  · cases h
  next rela _ =>
  obtain ⟨mB, hB, h⟩ := bind_eq_ok.mp h
  obtain ⟨s, -, h⟩ := bind_eq_ok.mp h
  obtain ⟨ss, -, h⟩ := bind_eq_ok.mp h
  cases h
  -- 参照先を含めて外し、まとめられたシンボルを外した後、フックのセクション `p` のリロケーションを付け替える
  have hC : Kept m ((mB.modSym rela.sym fun z => { z with included := false }).modSec s
      fun x => { x with sym := none }) :=
    (hA.trans (.of_grows (includeSymbol_grows hB).1)).trans
      ((Kept.modSym _ (by intros; assumption)).trans (.modSec s (by intro; exact ⟨rfl, rfl, rfl⟩)))
  have hhook : hookSectionNames.contains (m.sec p).name = true := by simpa using hn
  exact (IgnoreFrame.of_kept hC).trans (.setRelas p _ fun hn' => by rw [(hC.sec p).1, hhook] at hn'; cases hn')

theorem includeHookElements_ignoreFrame (h : xspliceIncludeHookElements m kelf = .ok m') : IgnoreFrame kelf m m' := by
  dsimp only [xspliceIncludeHookElements] at h
  obtain ⟨m1, h1, h⟩ := bind_eq_ok.mp h
  cases h
  refine (IgnoreFrame.foldlM (fun _ _ _ _ h => includeHookSection_ignoreFrame h) h1).trans
    (.of_kept (Kept.foldl (fun m y => ?_) _ _))
  dsimp only
  split_ifs
  exacts [.modSym _ (by intros; assumption), .refl _]

/-! ## 特別なセクションと出力のモデル -/

theorem regenerateStep_sameStays {special : SpecialSection} {kelf : Elf} {sp : SecRef} {src : List UInt8} {cap : Nat}
    {st st' : RegenState} (h : regenerateStep special kelf sp src cap st = .ok st') : SameStays st.mem st'.mem := by
  simp only [regenerateStep, bind_eq_ok] at h
  obtain ⟨n, -, keep, -, h⟩ := h
  cases keep with
  | false =>
    simp only [Bool.not_false, if_true, pure_eq_ok, Except.ok.injEq] at h
    exact h ▸ .refl _
  | true =>
    simp only [Bool.not_true, Bool.false_eq_true, if_false, pure_bind, bind_eq_ok] at h
    obtain ⟨dest, -, h⟩ := h
    cases h
    exact .of_status (moveGroupRelas_grows ..).symStatus

theorem regenerate_ignoreFrame {special : SpecialSection} {kelf e : Elf} {sp : SecRef} {groups : List (Nat × Nat)}
    (hok : xspliceRegenerateSpecialSection special m kelf sp = .ok (m', groups)) : IgnoreFrame e m m' := by
  obtain ⟨b, st, -, hloop, -, -, -, hcase⟩ := regenerate_ok_cases hok
  have hst : SameStays m st.mem := (@regenerateLoop_induct _ _ _ _ _ (fun st => SameStays m st.mem)
    (fun _ _ h _ hs => h.trans (regenerateStep_sameStays hs)) _ _ _ (.refl m) hloop).1
  have hs := (regenerate_shape hok).1
  refine ⟨fun q _ => hs.name q, fun q _ => hs.rela q, fun q _ _ x hx => ?_, fun y _ hy => ?_⟩
  · obtain ⟨x0, hx0, hsym, -⟩ := regenerate_keeps_addends hok q x hx
    exact ⟨x0, hx0, hsym⟩
  · rcases hcase with ⟨-, rfl⟩ | ⟨-, rfl⟩ <;> exact hst y hy

theorem processSpecialSections_ignoreFrame (h : xspliceProcessSpecialSections m kelf = .ok m') : IgnoreFrame e m m' := by
  simp only [xspliceProcessSpecialSections, bind_eq_ok, pure_eq_ok] at h
  obtain ⟨m1, hfold, h⟩ := h
  cases h
  refine (IgnoreFrame.foldlM (fun m special _ m' hstep => ?_) hfold).trans
    (.of_kept (.of_grows (Mem.Grows.foldl (includeAltinstrReplacement_grows kelf) _ _)))
  split at hstep
  · split at hstep
    · obtain ⟨⟨m2, _⟩, hreg, hm⟩ := bind_eq_ok.mp hstep
      exact Except.ok.inj hm ▸ regenerate_ignoreFrame hreg
    · exact Except.ok.inj hstep ▸ .refl m
  · exact Except.ok.inj hstep ▸ .refl m

theorem migrate_kept (m : Mem) (kelf : Elf) : Kept m (xspliceMigrateIncludedElements m kelf).1 := by
  dsimp only [xspliceMigrateIncludedElements]
  exact (Kept.foldl (fun m p => .modSec p (by intro; exact ⟨rfl, rfl, rfl⟩)) _ _).trans
    (Kept.foldl (fun m p => .modSym p (by intros; assumption)) _ _)

theorem createStringsElements_ignoreFrame (out : Elf) (hb : ∀ q ∈ e.sections, q < m.nsec)
    (hbY : ∀ y ∈ e.symbols, y < m.nsym) : IgnoreFrame e m (xspliceCreateStringsElements m out).1 :=
  have h := createStringsElements_spec m out
  .of_eq (fun q hq => h.2.1 q (hb q hq)) (fun y hy => h.2.2.2.1 y (hbY y hy))

theorem createPatchesSections_ignoreFrame {tgt : Target} {table : LookupTable} {hint : String} {resolve : Bool}
    {k k' : Elf} (hb : ∀ q ∈ e.sections, q < m.nsec)
    (h : xspliceCreatePatchesSections tgt table hint resolve m k = .ok (m', k')) : IgnoreFrame e m m' := by
  obtain ⟨-, -, hsym, hsec, -⟩ := createPatchesSections_ok h
  exact .of_eq (fun q hq => hsec q (hb q hq)) (fun y _ => by rw [hsym])

theorem buildStringsSectionData_kept {k : Elf} (h : xspliceBuildStringsSectionData m k = .ok m') : Kept m m' := by
  obtain ⟨sp, -, rfl⟩ := buildStringsSectionData_ok h
  exact .modSec sp fun _ => ⟨rfl, rfl, rfl⟩

theorem renameLocalSymbols_kept (m : Mem) (k : Elf) (hint : String) : Kept m (xspliceRenameLocalSymbols m k hint) :=
  Kept.foldl (fun m p => by dsimp only; split_ifs; exacts [.refl m, .modSym p fun _ h => h]) _ _

theorem reindexElements_kept (m : Mem) (k : Elf) : Kept m (xspliceReindexElements m k) := by
  have hsec : ∀ (a : Mem × Nat) p, Kept a.1 (reindexSection a p).1 := fun ⟨m, i⟩ p => by
    dsimp only [reindexSection]; exact .modSec p fun _ => ⟨rfl, rfl, rfl⟩
  have hsym : ∀ (a : Mem × Nat) p, Kept a.1 (reindexSymbol a p).1 := fun ⟨m, i⟩ p => by
    dsimp only [reindexSymbol]; exact .modSym p fun _ h => h
  exact (Kept.foldl_fst hsec k.sections (m, 1)).trans (Kept.foldl_fst hsym k.symbols (_, 0))

theorem setRelaSectionLinks_kept {k : Elf} (h : xspliceSetRelaSectionLinks m k = .ok m') : Kept m m' := by
  obtain ⟨symtab, -, h⟩ := bind_eq_ok.mp h
  cases h
  exact Kept.foldl (fun m p => by dsimp only; split; exacts [.refl m, .modSec p fun _ => ⟨rfl, rfl, rfl⟩]) _ _

/-! ## `main` の後半 -/

/-- ローダの不変条件を満たし、無視した関数が `SAME` である patched のモデルから `main` の後半が出力を書けば、
出力の最後のセクションは `.rela.xsplice.funcs` で、そのリロケーションは関数の列 `ps` の項目を順に埋める。
`.rela.xsplice.ignore.functions` のリロケーションが指す関数は、どれも `SAME` のままで、`ps` にない。 -/
theorem mainEmit_ignoredUnpatched {tgt : Target} {table : LookupTable} {resolve : Bool} {patched out : Elf}
    (hbound : ∀ s ∈ patched.sections, s < m.nsec) (hboundY : ∀ y ∈ patched.symbols, y < m.nsym)
    (hP : PrepInv m patched) (hi : IgnoredSame m patched)
    (h : mainEmit tgt table resolve m patched = .ok (.written m' out)) :
    ∃ rp strsym ps, out.sections.getLast? = some rp ∧ (m'.sec rp).name = ".rela.xsplice.funcs" ∧
      PatchRelas tgt.layout strsym (fun _ _ => True) ps (m'.sec rp).relas ∧
      ∀ p r, findSectionByName m' patched.sections ".xsplice.ignore.functions" = some p → (m'.sec p).rela = some r →
        ∀ x ∈ (m'.sec r).relas, (m'.sym x.sym).status = .same ∧ x.sym ∉ ps := by
  obtain ⟨m1, hint, m4, out4, m5, hspec, -, -, hpatch, hbuild, rfl, hlinks⟩ := mainEmit_ok h
  obtain ⟨hs1, hi1⟩ := processSpecialSections_links hP.links hP.baseIncluded hspec
  obtain ⟨hs2, -⟩ := migrate_relaClosed (hP.links.of_shape hs1) hi1
  have F1 : IgnoreFrame patched m (xspliceMigrateIncludedElements m1 patched).1 :=
    (processSpecialSections_ignoreFrame hspec).trans (.of_kept (migrate_kept m1 patched))
  generalize xspliceMigrateIncludedElements m1 patched = mig at hpatch hs2 F1
  -- `.xsplice.strings` を加えた後も、無視した関数は `SAME`
  have F2 : IgnoreFrame patched m (xspliceCreateStringsElements mig.1 mig.2.1).1 :=
    F1.trans (createStringsElements_ignoreFrame _ (fun q hq => by rw [hs2.nsec, hs1.nsec]; exact hbound q hq)
      (fun y hy => by rw [hs2.nsym, hs1.nsym]; exact hboundY y hy))
  obtain ⟨hn3, -, -, -, -, -, -, -⟩ := createStringsElements_spec mig.1 mig.2.1
  generalize xspliceCreateStringsElements mig.1 mig.2.1 = cs at hpatch F2 hn3
  obtain ⟨m3, out3⟩ := cs
  dsimp only at hpatch F2 hn3
  -- `.xsplice.funcs` の項目は `CHANGED` の関数のもの
  obtain ⟨strsym, -, -, -, -, -, hout4, hrel⟩ := createPatchesSections_ok hpatch
  obtain ⟨-, -, -, hname4⟩ := createPatchesSections_headers hpatch
  have F3 : IgnoreFrame patched m3 m4 := createPatchesSections_ignoreFrame (fun q hq => by
    rw [hn3, hs2.nsec, hs1.nsec]; exact Nat.lt_succ_of_lt (hbound q hq)) hpatch
  -- 最後の四つの段は、どのセクションの名前とリロケーションも変えない
  have K : Kept m4 m' := ((buildStringsSectionData_kept hbuild).trans (renameLocalSymbols_kept _ _ _)).trans
    ((reindexElements_kept _ _).trans (setRelaSectionLinks_kept hlinks))
  have F := (F2.trans F3).trans (.of_kept K)
  refine ⟨m3.nsec + 1, strsym, _, ?_, by rw [(K.sec _).1, hname4], by
    rw [(K.sec _).2.2]; exact hrel.mono fun _ _ _ _ => trivial, fun p r hp hr x hx => ?_⟩
  · show out4.sections.getLast? = _
    rw [hout4]
    simp
  · obtain ⟨hp0, hr0, x0, hx0, hsym, hmem⟩ := F.trace hP hp hr hx
    have hsame := hi p r hp0 hr0 x0 hx0
    rw [hsym]
    refine ⟨F.same _ hmem hsame, fun hps => ?_⟩
    have hc := (List.mem_filter.mp hps).2
    rw [F2.same _ hmem hsame] at hc
    simp at hc

end XspliceDiff

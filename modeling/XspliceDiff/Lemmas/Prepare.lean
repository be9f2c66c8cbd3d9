import XspliceDiff.Lemmas.Emit
import XspliceDiff.Lemmas.StaticLocal

/-!
# `main` の前半が保つローダの不変条件（§4.1–§4.3）

`main` の前半は、印と状態、リロケーションの参照先、名前だけを書き換える段と、要素を含める段とからなる。
ここでは前者を扱う。patched のモデルについて、ローダが作る `base` と `rela` のリンク、リロケーションの
セクションの名前（`.rela` に `base` の名前を続けたもの）、シンボルとリロケーションが閉じていること、含めた
セクションの `base` が含めてあることを `PrepInv` にまとめ、各段がそれを保つことを示す。
`xsplice_replace_sections_syms` は base にも施されるが、base と patched のセクションは別のものなので、
patched の不変条件はそのまま残る。
-/

namespace XspliceDiff


/-! ## ループの不変条件 -/

/-- ループの不変条件が、残りの列と、いま処理する要素がリストにあることを見てよい形。 -/
theorem foldlM_rest_invariant {α β : Type} {f : α → β → Except Abort α} {P : α → List β → Prop} {l : List β}
    (hf : ∀ a x rest a', x ∈ l → P a (x :: rest) → f a x = .ok a' → P a' rest) :
    ∀ {rest : List β} {a a' : α}, rest <:+ l → P a rest → rest.foldlM f a = .ok a' → P a' []
  | [], _, _, _, ha, h => Except.ok.inj h ▸ ha
  | x :: rest, a, _, hs, ha, h => by
    rw [List.foldlM_cons, bind_eq_ok] at h
    obtain ⟨a1, h1, h2⟩ := h
    exact foldlM_rest_invariant hf ((List.suffix_cons x rest).trans hs)
      (hf a x rest a1 (hs.subset (List.mem_cons_self x rest)) ha h1) h2

theorem foldlM_mem_invariant {α β : Type} {f : α → β → Except Abort α} {P : α → Prop} {l : List β}
    (hf : ∀ a, ∀ x ∈ l, ∀ a', P a → f a x = .ok a' → P a') {a a' : α} (ha : P a) (h : l.foldlM f a = .ok a') : P a' :=
  @foldlM_rest_invariant _ _ _ (fun a _ => P a) l (fun a x _ a' hx ha h => hf a x hx a' ha h) _ _ _
    (List.suffix_refl l) ha h

theorem filterAuxM_mem {α : Type} {p : α → Except Abort Bool} :
    ∀ {l acc res : List α}, List.filterAuxM p l acc = .ok res → ∀ x ∈ res, x ∈ l ∨ x ∈ acc
  | [], _, _, h, x, hx => by simp only [List.filterAuxM] at h; cases h; exact .inr hx
  | a :: l, acc, res, h, x, hx => by
    simp only [List.filterAuxM] at h
    obtain ⟨b, -, h⟩ := bind_eq_ok.mp h
    rcases filterAuxM_mem h x hx with h1 | h1
    · exact .inl (List.mem_cons_of_mem a h1)
    · cases b
      · exact .inr h1
      · rcases List.mem_cons.mp h1 with rfl | h1
        exacts [.inl (List.mem_cons_self x l), .inr h1]

theorem filterM_mem {α : Type} {p : α → Except Abort Bool} {l res : List α} (h : l.filterM p = .ok res) :
    ∀ x ∈ res, x ∈ l := fun x hx => by
  obtain ⟨r, hr, h⟩ := bind_eq_ok.mp h
  cases h
  exact (filterAuxM_mem hr x (List.mem_reverse.mp hx)).resolve_right (List.not_mem_nil x)

/-! ## 印と状態だけの書き換え -/

/-- 状態、`twin`、`grouped`、`ignore` を消したセクション。 -/
def Section.core (x : Section) : Section := { x with status := .new, twin := none, grouped := false, ignore := false }

/-- 状態、`twin`、`grouped`、`ignore`、`include` を消したセクション：ローダが作るリンクと、名前、
ヘッダ、リロケーション。 -/
def Section.links (x : Section) : Section := { x.core with included := false }

/-- `m'` は、印と状態と `include` だけを書き換えたもの。 -/
structure Keeps (m m' : Mem) : Prop where
  nsec : m'.nsec = m.nsec
  nsym : m'.nsym = m.nsym
  sec : ∀ s, (m'.sec s).links = (m.sec s).links
  symSec : ∀ y, (m'.sym y).sec = (m.sym y).sec

namespace Keeps

variable {m m' m'' : Mem}

theorem refl (m : Mem) : Keeps m m := ⟨rfl, rfl, fun _ => rfl, fun _ => rfl⟩

theorem trans (h1 : Keeps m m') (h2 : Keeps m' m'') : Keeps m m'' :=
  ⟨h2.nsec.trans h1.nsec, h2.nsym.trans h1.nsym, fun s => (h2.sec s).trans (h1.sec s),
   fun y => (h2.symSec y).trans (h1.symSec y)⟩

theorem of_grows (h : m.Grows m') (hn : m'.nsec = m.nsec) (hn' : m'.nsym = m.nsym) : Keeps m m' :=
  ⟨hn, hn', fun s => by have := congrArg Section.core (h.sec s); exact congrArg (fun x => { x with included := false }) this,
   h.symSec⟩

theorem shape (h : Keeps m m') : SecShape m m' where
  nsec := h.nsec
  nsym := h.nsym
  base s := by have := congrArg Section.base (h.sec s); exact this
  rela s := by have := congrArg Section.rela (h.sec s); exact this
  name s := by have := congrArg Section.name (h.sec s); exact this
  shType s := by have := congrArg (fun x => x.sh.shType) (h.sec s); exact this

theorem relas (h : Keeps m m') (s : SecRef) : (m'.sec s).relas = (m.sec s).relas := by
  have := congrArg Section.relas (h.sec s); exact this

theorem secSym (h : Keeps m m') (s : SecRef) : (m'.sec s).sym = (m.sec s).sym := by
  have := congrArg Section.sym (h.sec s); exact this

theorem secsym (h : Keeps m m') (s : SecRef) : (m'.sec s).secsym = (m.sec s).secsym := by
  have := congrArg Section.secsym (h.sec s); exact this

end Keeps

/-- `m'` は、セクションの状態、`twin`、`grouped`、`ignore` と、シンボルのセクション以外のフィールドだけを
書き換えたもの。 -/
structure Frame (m m' : Mem) : Prop where
  nsec : m'.nsec = m.nsec
  nsym : m'.nsym = m.nsym
  sec : ∀ s, (m'.sec s).core = (m.sec s).core
  symSec : ∀ y, (m'.sym y).sec = (m.sym y).sec

namespace Frame

variable {m m' m'' : Mem}

theorem refl (m : Mem) : Frame m m := ⟨rfl, rfl, fun _ => rfl, fun _ => rfl⟩

theorem trans (h1 : Frame m m') (h2 : Frame m' m'') : Frame m m'' :=
  ⟨h2.nsec.trans h1.nsec, h2.nsym.trans h1.nsym, fun s => (h2.sec s).trans (h1.sec s),
   fun y => (h2.symSec y).trans (h1.symSec y)⟩

theorem modSec {f : Section → Section} (p : SecRef) (hf : ∀ x, (f x).core = x.core) : Frame m (m.modSec p f) :=
  ⟨rfl, rfl, fun s => by by_cases hs : s = p <;> simp [Mem.modSec_sec, hs, hf], fun _ => rfl⟩

theorem modSym {f : Symbol → Symbol} (p : SymRef) (hf : ∀ y, (f y).sec = y.sec) : Frame m (m.modSym p f) :=
  ⟨rfl, rfl, fun _ => rfl, fun y => by by_cases hy : y = p <;> simp [Mem.modSym_sym, hy, hf]⟩

theorem foldl {β : Type} {f : Mem → β → Mem} (hf : ∀ (m : Mem) x, Frame m (f m x)) :
    ∀ (l : List β) (m : Mem), Frame m (l.foldl f m)
  | [], m => refl m
  | x :: l, m => (hf m x).trans (foldl hf l (f m x))

theorem foldlM {β : Type} {f : Mem → β → Except Abort Mem} (hf : ∀ m x m', f m x = .ok m' → Frame m m')
    {l : List β} (h : l.foldlM f m = .ok m') : Frame m m' :=
  @foldlM_invariant _ _ _ (fun m1 => Frame m m1) (fun _ x _ h1 h2 => h1.trans (hf _ x _ h2)) _ _ _ (refl m) h

theorem included (h : Frame m m') (s : SecRef) : (m'.sec s).included = (m.sec s).included := by
  have := congrArg Section.included (h.sec s); exact this

theorem keeps (h : Frame m m') : Keeps m m' :=
  ⟨h.nsec, h.nsym, fun s => congrArg (fun x => { x with included := false }) (h.sec s), h.symSec⟩

end Frame

/-! ## ローダが作るものと、それが保たれること -/

/-- リロケーションのセクションの名前は、`.rela` に `base` の名前を続けたもの。 -/
def RelaNamed (m : Mem) (secs : List SecRef) : Prop :=
  ∀ r ∈ secs, ∀ b ∈ (m.sec r).base, (m.sec r).name = ".rela" ++ (m.sec b).name

instance (m : Mem) (secs : List SecRef) : Decidable (RelaNamed m secs) :=
  inferInstanceAs (Decidable (∀ r ∈ secs, _))

/-- オブジェクトのシンボルとリロケーションが閉じている：シンボルのセクションはオブジェクトのセクションで、
リロケーションのセクションではない。リロケーションの参照先、まとめられたシンボル、セクションのシンボルは
オブジェクトのシンボルである。 -/
structure SymbolsClosed (m : Mem) (kelf : Elf) : Prop where
  symSec : ∀ y ∈ kelf.symbols, ∀ s ∈ (m.sym y).sec, s ∈ kelf.sections ∧ isRelaSection (m.sec s) = false
  relas : ∀ s ∈ kelf.sections, ∀ rela ∈ (m.sec s).relas, rela.sym ∈ kelf.symbols
  bundled : ∀ s ∈ kelf.sections, ∀ y ∈ (m.sec s).sym, y ∈ kelf.symbols
  secsym : ∀ s ∈ kelf.sections, ∀ y ∈ (m.sec s).secsym, y ∈ kelf.symbols

instance (m : Mem) (kelf : Elf) : Decidable (SymbolsClosed m kelf) :=
  decidable_of_iff ((∀ y ∈ kelf.symbols, ∀ s ∈ (m.sym y).sec, s ∈ kelf.sections ∧ isRelaSection (m.sec s) = false) ∧
      (∀ s ∈ kelf.sections, ∀ rela ∈ (m.sec s).relas, rela.sym ∈ kelf.symbols) ∧
      (∀ s ∈ kelf.sections, ∀ y ∈ (m.sec s).sym, y ∈ kelf.symbols) ∧
      ∀ s ∈ kelf.sections, ∀ y ∈ (m.sec s).secsym, y ∈ kelf.symbols)
    ⟨fun ⟨h1, h2, h3, h4⟩ => ⟨h1, h2, h3, h4⟩, fun ⟨h1, h2, h3, h4⟩ => ⟨h1, h2, h3, h4⟩⟩

/-- `main` の前半で保たれる patched のモデルの性質：ローダのリンクと名前、閉じたシンボル、含めたセクションの
`base` が含めてあること。 -/
structure PrepInv (m : Mem) (kelf : Elf) : Prop where
  links : RelaLinks m kelf.sections
  named : RelaNamed m kelf.sections
  closed : SymbolsClosed m kelf
  baseIncluded : BaseIncluded m kelf.sections

instance (m : Mem) (kelf : Elf) : Decidable (PrepInv m kelf) :=
  decidable_of_iff (RelaLinks m kelf.sections ∧ RelaNamed m kelf.sections ∧ SymbolsClosed m kelf ∧
      BaseIncluded m kelf.sections)
    ⟨fun ⟨h1, h2, h3, h4⟩ => ⟨h1, h2, h3, h4⟩, fun ⟨h1, h2, h3, h4⟩ => ⟨h1, h2, h3, h4⟩⟩

variable {m m' : Mem} {kelf : Elf}

theorem RelaNamed.of_shape {secs : List SecRef} (hs : SecShape m m') (h : RelaNamed m secs) : RelaNamed m' secs := by
  intro r hr b hb
  rw [hs.name, hs.name]
  exact h r hr b (hs.base r ▸ hb)

theorem SymbolsClosed.of_keeps (hk : Keeps m m') (h : SymbolsClosed m kelf) : SymbolsClosed m' kelf where
  symSec y hy s hs := by rw [hk.shape.isRela]; exact h.symSec y hy s (hk.symSec y ▸ hs)
  relas s hs rela hr := h.relas s hs rela (hk.relas s ▸ hr)
  bundled s hs y hy := h.bundled s hs y (hk.secSym s ▸ hy)
  secsym s hs y hy := h.secsym s hs y (hk.secsym s ▸ hy)

theorem PrepInv.of_keeps (hk : Keeps m m') (hi : BaseIncluded m' kelf.sections) (h : PrepInv m kelf) : PrepInv m' kelf :=
  ⟨h.links.of_shape hk.shape, h.named.of_shape hk.shape, h.closed.of_keeps hk, hi⟩

theorem BaseIncluded.of_frame {secs : List SecRef} (hf : Frame m m') (h : BaseIncluded m secs) : BaseIncluded m' secs := by
  intro r hr hi b hb
  rw [hf.included] at hi ⊢
  exact h r hr hi b (hf.keeps.shape.base r ▸ hb)

theorem PrepInv.of_frame (hf : Frame m m') (h : PrepInv m kelf) : PrepInv m' kelf :=
  h.of_keeps hf.keeps (h.baseIncluded.of_frame hf)

/-! ## 印と状態だけを書き換える段 -/

theorem markGroupedSections_frame (h : xspliceMarkGroupedSections m kelf = .ok m') : Frame m m' := by
  refine Frame.foldlM (fun m g m' h => ?_) h
  dsimp only at h
  split at h
  · cases h; exact .refl m
  · rw [pure_bind] at h
    obtain ⟨ws, -, h⟩ := bind_eq_ok.mp h
    refine Frame.foldlM (fun m w m' h => ?_) h
    split at h
    · cases h; exact .modSec _ (by intro; rfl)
    · cases h

theorem correlateElfs_frame (base patched : Elf) : Frame m (xspliceCorrelateElfs m base patched) := by
  refine (Frame.foldl (fun m p => ?_) _ _).trans (Frame.foldl (fun m p => ?_) _ _)
  · unfold correlateSection
    split
    · exact (Frame.modSec _ (by intro; rfl)).trans (.modSec _ (by intro; rfl))
    · exact .refl m
  · unfold correlateSymbol
    split
    · exact (Frame.modSym _ (by intro; rfl)).trans (.modSym _ (by intro; rfl))
    · exact .refl m

theorem correlateStaticLocalVariables_frame (h : xspliceCorrelateStaticLocalVariables m kelf = .ok m') : Frame m m' := by
  have hren : ∀ m p b, Frame m (renameAndTwin m p b) := fun m p b => by
    unfold renameAndTwin twinSymbols
    exact (Frame.modSym p (by intro; rfl)).trans ((Frame.modSym p (by intro; rfl)).trans (.modSym b (by intro; rfl)))
  refine Frame.foldlM (fun m p m' h => ?_) h
  rcases correlateStaticLocal_cases h with rfl | ⟨b, s, bs, -, -, -, -, -, ⟨-, rfl⟩ | ⟨-, -, rfl⟩⟩
  · exact .refl _
  · exact (hren m p b).trans ((Frame.modSec _ (by intro; rfl)).trans (.modSec _ (by intro; rfl)))
  · exact hren m p b

theorem checkSymbolSections_frame {p q : SymRef} (h : checkSymbolSections m p q = .ok m') : Frame m m' := by
  unfold checkSymbolSections changedSections at h
  split at h
  · split_ifs at h
    · split at h
      · split_ifs at h
        cases h; exact .modSym _ (by intro; rfl)
      · cases h
    · cases h; exact .refl m
  · cases h; exact .refl m

theorem compareSymbol_frame {p : SymRef} (h : compareSymbol m p = .ok m') : Frame m m' := by
  unfold compareSymbol at h
  split at h
  · dsimp only [xspliceCompareCorrelatedSymbol] at h
    split_ifs at h
    all_goals obtain ⟨m1, hm1, h⟩ := bind_eq_ok.mp h
    · cases h
    · cases h; exact (checkSymbolSections_frame hm1).trans (.modSym _ (by intro; rfl))
    · cases h; exact checkSymbolSections_frame hm1
  · cases h; exact .modSym _ (by intro; rfl)

theorem compareCorrelatedElements_frame (h : xspliceCompareCorrelatedElements m kelf = .ok m') : Frame m m' := by
  simp only [xspliceCompareCorrelatedElements, xspliceCompareSections, bind_eq_ok, pure_eq_ok] at h
  obtain ⟨m1, ⟨m0, hsecs, hm1⟩, hsyms⟩ := h
  obtain rfl := Except.ok.inj hm1
  refine ((Frame.foldlM (fun m p m' h => ?_) hsecs).trans (Frame.foldl (fun m p => ?_) _ _)).trans
    (Frame.foldlM (fun _ _ _ h => compareSymbol_frame h) hsyms)
  · dsimp only [compareSection] at h
    split at h <;> obtain ⟨_, -, h⟩ := bind_eq_ok.mp h <;> cases h <;> exact .modSec _ (by intro; rfl)
  · unfold syncSymbolStatus
    dsimp only
    split
    · split_ifs
      exacts [.modSym _ (by intro; rfl), .refl _]
    · exact .refl _

theorem markFunctionSame_frame (m : Mem) (p : SymRef) (s : SecRef) : Frame m (markFunctionSame m p s) := by
  have h1 : Frame m ((m.modSym p fun y => { y with status := .same }).modSec s fun x => { x with status := .same }) :=
    (Frame.modSym p (by intro; rfl)).trans (.modSec s (by intro; rfl))
  unfold markFunctionSame
  dsimp only
  split <;> split
  all_goals first
    | exact (h1.trans (.modSym _ (by intro; rfl))).trans (.modSec _ (by intro; rfl))
    | exact h1.trans (.modSym _ (by intro; rfl))
    | exact h1.trans (.modSec _ (by intro; rfl))
    | exact h1

theorem markIgnoredFunctionsSame_frame (h : xspliceMarkIgnoredFunctionsSame m kelf = .ok m') : Frame m m' := by
  dsimp only [xspliceMarkIgnoredFunctionsSame] at h
  split at h
  · obtain ⟨r, -, h⟩ := bind_eq_ok.mp h
    refine Frame.foldlM (fun m rela m' h => ?_) h
    split at h
    · split_ifs at h
      · cases h
      · rw [pure_bind] at h; cases h; exact markFunctionSame_frame _ _ _
    · cases h
  · cases h; exact .refl m

theorem markIgnoredSectionsSame_frame (m : Mem) (kelf : Elf) : Frame m (xspliceMarkIgnoredSectionsSame m kelf) := by
  refine Frame.foldl (fun m p => ?_) _ _
  unfold markIgnoredSectionSame
  split_ifs
  · exact .refl m
  · dsimp only
    refine Frame.trans ?_ (Frame.foldl (fun m y => ?_) _ _)
    · split
      all_goals first | refine Frame.trans ?_ (.modSec _ (by intro; rfl)) | skip
      all_goals split
      all_goals first | refine Frame.trans ?_ (.modSym _ (by intro; rfl)) | skip
      all_goals exact .modSec p (by intro; rfl)
    · dsimp only
      split_ifs
      exacts [.modSym _ (by intro; rfl), .refl _]

theorem markConstantLabelsSame_frame (m : Mem) (kelf : Elf) : Frame m (xspliceMarkConstantLabelsSame m kelf) := by
  refine Frame.foldl (fun m y => ?_) _ _
  dsimp only
  split_ifs
  exacts [.modSym _ (by intro; rfl), .refl _]

/-! ## リロケーションだけを書き換える段 -/

/-- `m'` は、リロケーションの列だけを書き換えたもの。 -/
structure RelasOnly (m m' : Mem) : Prop where
  nsec : m'.nsec = m.nsec
  nsym : m'.nsym = m.nsym
  symSec : ∀ y, (m'.sym y).sec = (m.sym y).sec
  sec : ∀ s, { m'.sec s with relas := [] } = { m.sec s with relas := [] }

theorem RelasOnly.refl (m : Mem) : RelasOnly m m := ⟨rfl, rfl, fun _ => rfl, fun _ => rfl⟩

theorem RelasOnly.trans {m'' : Mem} (h1 : RelasOnly m m') (h2 : RelasOnly m' m'') : RelasOnly m m'' :=
  ⟨h2.nsec.trans h1.nsec, h2.nsym.trans h1.nsym, fun y => (h2.symSec y).trans (h1.symSec y),
   fun s => (h2.sec s).trans (h1.sec s)⟩

theorem RelasOnly.setRelas (m : Mem) (p : SecRef) (relas : List Rela) :
    RelasOnly m (m.modSec p fun x => { x with relas := relas }) :=
  ⟨rfl, rfl, fun _ => rfl, fun s => by by_cases hs : s = p <;> simp [Mem.modSec_sec, hs]⟩

theorem RelasOnly.shape (h : RelasOnly m m') : SecShape m m' where
  nsec := h.nsec
  nsym := h.nsym
  base s := by have := congrArg Section.base (h.sec s); exact this
  rela s := by have := congrArg Section.rela (h.sec s); exact this
  name s := by have := congrArg Section.name (h.sec s); exact this
  shType s := by have := congrArg (fun x => x.sh.shType) (h.sec s); exact this

theorem RelasOnly.included (h : RelasOnly m m') (s : SecRef) : (m'.sec s).included = (m.sec s).included := by
  have := congrArg Section.included (h.sec s); exact this

theorem SymbolsClosed.of_relasOnly (h : RelasOnly m m')
    (hrelas : ∀ s ∈ kelf.sections, ∀ rela ∈ (m'.sec s).relas, rela.sym ∈ kelf.symbols) (hc : SymbolsClosed m kelf) :
    SymbolsClosed m' kelf where
  symSec y hy s hs := by rw [h.shape.isRela]; exact hc.symSec y hy s (h.symSec y ▸ hs)
  relas := hrelas
  bundled s hs y hy := hc.bundled s hs y (by have := congrArg Section.sym (h.sec s); exact this ▸ hy)
  secsym s hs y hy := hc.secsym s hs y (by have := congrArg Section.secsym (h.sec s); exact this ▸ hy)

theorem PrepInv.of_relasOnly (h : RelasOnly m m') (hrelas : ∀ s ∈ kelf.sections, ∀ rela ∈ (m'.sec s).relas, rela.sym ∈ kelf.symbols)
    (hi : PrepInv m kelf) : PrepInv m' kelf where
  links := hi.links.of_shape h.shape
  named := hi.named.of_shape h.shape
  closed := hi.closed.of_relasOnly h hrelas
  baseIncluded r hr hri b hb := by
    rw [h.included] at hri ⊢; exact hi.baseIncluded r hr hri b (h.shape.base r ▸ hb)

theorem mapM_ok_mem {α β : Type} {f : α → Except Abort β} :
    ∀ {l : List α} {l' : List β}, l.mapM f = .ok l' → ∀ y ∈ l', ∃ x ∈ l, f x = .ok y
  | [], _, h, y, hy => by cases h; cases hy
  | x :: l, _, h, y, hy => by
    simp only [List.mapM_cons, bind_eq_ok, pure_eq_ok, Except.ok.injEq] at h
    obtain ⟨b, hb, bs, hbs, rfl⟩ := h
    rcases List.mem_cons.mp hy with rfl | hy
    · exact ⟨x, List.mem_cons_self x l, hb⟩
    · obtain ⟨x', hx', h'⟩ := mapM_ok_mem hbs y hy
      exact ⟨x', List.mem_cons_of_mem x hx', h'⟩

theorem replaceSectionSym_closed {decode : InsnDecoder} {sec : Section} {rela rela' : Rela} (hc : SymbolsClosed m kelf)
    (hr : rela.sym ∈ kelf.symbols) (h : replaceSectionSym decode m kelf sec rela = .ok rela') : rela'.sym ∈ kelf.symbols := by
  rcases replaceSectionSym_cases h with rfl | ⟨s, b, -, hs, hb, rfl⟩ | ⟨q, hq, -, -, rfl⟩
  · exact hr
  · exact hc.bundled s (hc.symSec _ hr s hs).1 b hb
  · exact hq

theorem replaceSectionsSyms_relasOnly {decode : InsnDecoder} (hc : SymbolsClosed m kelf)
    (h : xspliceReplaceSectionsSyms decode m kelf = .ok m') :
    RelasOnly m m' ∧ SymbolsClosed m' kelf ∧ ∀ s ∉ kelf.sections, m'.sec s = m.sec s := by
  refine @foldlM_mem_invariant _ _ _ (fun m1 => RelasOnly m m1 ∧ SymbolsClosed m1 kelf ∧ ∀ s ∉ kelf.sections, m1.sec s = m.sec s)
    _ (fun m1 p hp m2 ⟨ho, hc1, hout⟩ h => ?_) _ _ ⟨.refl m, hc, fun _ _ => rfl⟩ h
  dsimp only at h
  split_ifs at h
  · cases h; exact ⟨ho, hc1, hout⟩
  rw [pure_bind] at h
  obtain ⟨relas, hrelas, h⟩ := bind_eq_ok.mp h
  cases h
  have ho2 := RelasOnly.setRelas m1 p relas
  have hnew : ∀ rela ∈ relas, rela.sym ∈ kelf.symbols := fun rela' hr' => by
    obtain ⟨rela, hr, h⟩ := mapM_ok_mem hrelas rela' hr'
    exact replaceSectionSym_closed hc1 (hc1.relas p hp rela hr) h
  refine ⟨ho.trans ho2, hc1.of_relasOnly ho2 fun s _ rela hr => ?_, fun s hs => ?_⟩
  · by_cases hsp : s = p
    · subst hsp; exact hnew rela (by simpa using hr)
    · rw [Mem.modSec_sec_of_ne _ _ hsp] at hr; exact hc1.relas s ‹_› rela hr
  · rw [Mem.modSec_sec_of_ne _ _ (by rintro rfl; exact hs hp)]; exact hout s hs

/-- `kelf` のセクションとシンボルのセクションを変えない書き換えは、`kelf` の不変条件を保つ。 -/
theorem PrepInv.of_agree (hsec : ∀ s ∈ kelf.sections, m'.sec s = m.sec s) (hsym : ∀ y, (m'.sym y).sec = (m.sym y).sec)
    (hi : PrepInv m kelf) : PrepInv m' kelf := by
  have hbase : ∀ r ∈ kelf.sections, ∀ b ∈ (m'.sec r).base, b ∈ kelf.sections := fun r hr b hb =>
    (hi.links.baseOf r hr b (hsec r hr ▸ hb)).1
  refine ⟨⟨fun r hr => ?_, fun r hr => ?_, fun r hr b hb => ?_, fun b hb r hr => ?_⟩, fun r hr b hb => ?_,
    ⟨fun y hy s hs => ?_, fun s hs => ?_, fun s hs => ?_, fun s hs => ?_⟩, fun r hr hri b hb => ?_⟩
  · rw [hsec r hr]; exact hi.links.hasBase r hr
  · rw [hsec r hr]; exact hi.links.named r hr
  · rw [hsec b (hbase r hr b hb)]; rw [hsec r hr] at hb; exact hi.links.baseOf r hr b hb
  · rw [hsec b hb] at hr
    have h := hi.links.relaOf b hb r hr
    rw [hsec r h.1]; exact h
  · rw [hsec b (hbase r hr b hb), hsec r hr]; rw [hsec r hr] at hb; exact hi.named r hr b hb
  · have h := hi.closed.symSec y hy s (hsym y ▸ hs)
    rw [hsec s h.1]; exact h
  · rw [hsec s hs]; exact hi.closed.relas s hs
  · rw [hsec s hs]; exact hi.closed.bundled s hs
  · rw [hsec s hs]; exact hi.closed.secsym s hs
  · rw [hsec b (hbase r hr b hb)]; rw [hsec r hr] at hri hb; exact hi.baseIncluded r hr hri b hb

/-! ## 名前を変えられた関数の改名 -/

theorem rodataName_ok {s n : String} (h : rodataName s = .ok n) : n = ".rodata." ++ s := by
  unfold rodataName at h
  dsimp only at h
  split_ifs at h
  exact (Except.ok.inj h).symm

/-- `m'` は、`secs` のセクションの名前とシンボルの名前だけを書き換え、リロケーションのセクションの名前を
`.rela` に `base` の名前を続けたものに保つ。 -/
structure Renamed (m m' : Mem) (secs : List SecRef) : Prop where
  nsec : m'.nsec = m.nsec
  nsym : m'.nsym = m.nsym
  symSec : ∀ y, (m'.sym y).sec = (m.sym y).sec
  sec : ∀ s, { m'.sec s with name := "" } = { m.sec s with name := "" }
  outside : ∀ s ∉ secs, m'.sec s = m.sec s
  named : RelaNamed m' secs

namespace Renamed

variable {secs : List SecRef}

theorem base (h : Renamed m m' secs) (s : SecRef) : (m'.sec s).base = (m.sec s).base := by
  have := congrArg Section.base (h.sec s); exact this

theorem rela (h : Renamed m m' secs) (s : SecRef) : (m'.sec s).rela = (m.sec s).rela := by
  have := congrArg Section.rela (h.sec s); exact this

theorem isRela (h : Renamed m m' secs) (s : SecRef) : isRelaSection (m'.sec s) = isRelaSection (m.sec s) := by
  have := congrArg (fun x => x.sh.shType) (h.sec s); exact congrArg (· == SHT_RELA) this

end Renamed

theorem hasPrefix_rela_append (x : String) : hasPrefix (".rela" ++ x) ".rela" = true := by
  simp [hasPrefix]

theorem rela_append_ne_rodata (x y : String) : ".rela" ++ x ≠ ".rodata." ++ y := by
  intro h; have := congrArg String.toList h; simp at this

theorem PrepInv.of_renamed (h : Renamed m m' kelf.sections) (hi : PrepInv m kelf) : PrepInv m' kelf where
  links :=
    { hasBase := fun r hr => by rw [h.isRela, h.base]; exact hi.links.hasBase r hr
      named := fun r hr hrela => by
        obtain ⟨b, hb⟩ := Option.isSome_iff_exists.mp ((hi.links.hasBase r hr).mp (h.isRela r ▸ hrela))
        rw [h.named r hr b (by rw [h.base]; exact hb)]; exact hasPrefix_rela_append _
      baseOf := fun r hr b hb => by rw [h.isRela, h.rela]; exact hi.links.baseOf r hr b (h.base r ▸ hb)
      relaOf := fun b hb r hr => by rw [h.base]; exact hi.links.relaOf b hb r (h.rela b ▸ hr) }
  named := h.named
  closed :=
    { symSec := fun y hy s hs => by rw [h.isRela]; exact hi.closed.symSec y hy s (h.symSec y ▸ hs)
      relas := fun s hs rela hr => hi.closed.relas s hs rela (by have := congrArg Section.relas (h.sec s); exact this ▸ hr)
      bundled := fun s hs y hy => hi.closed.bundled s hs y (by have := congrArg Section.sym (h.sec s); exact this ▸ hy)
      secsym := fun s hs y hy => hi.closed.secsym s hs y (by have := congrArg Section.secsym (h.sec s); exact this ▸ hy) }
  baseIncluded r hr hri b hb := by
    have hinc : ∀ s, (m'.sec s).included = (m.sec s).included := fun s => by
      have := congrArg Section.included (h.sec s); exact this
    rw [hinc] at hri ⊢; exact hi.baseIncluded r hr hri b (h.base r ▸ hb)

section Rename

variable {base patched : Elf} (hP : PrepInv m patched) (hB : PrepInv m base)
  (hdisj : ∀ s ∈ base.sections, s ∉ patched.sections)
include hP hB hdisj

theorem Renamed.renamePair {m1 m2 m3 : Mem} {x y : SecRef} {what : String} (h1 : Renamed m m1 patched.sections)
    (hx : x ∈ patched.sections) (hxr : isRelaSection (m.sec x) = false) (hy : y ∈ base.sections)
    (h2 : m2.sec = (m1.modSec x fun z => { z with name := (m1.sec y).name }).sec) (hn2 : m2.nsec = m1.nsec)
    (hn2' : m2.nsym = m1.nsym) (hs2 : ∀ q, (m2.sym q).sec = (m1.sym q).sec) (h : renameRela m2 x y what = .ok m3) :
    Renamed m m3 patched.sections := by
  have hyP := hdisj y hy
  have hxy : y ≠ x := fun e => hyP (e ▸ hx)
  have hm2 : ∀ s ≠ x, m2.sec s = m1.sec s := fun s hs => by rw [h2, Mem.modSec_sec_of_ne _ _ hs]
  have hm2x : m2.sec x = { m1.sec x with name := (m.sec y).name } := by
    rw [h2, Mem.modSec_sec_self, h1.outside y hyP]
  -- リロケーションのセクションは `x` でない
  have hne : ∀ r ∈ patched.sections, ∀ b ∈ (m.sec r).base, r ≠ x ∧ b ∈ patched.sections ∧
      isRelaSection (m.sec b) = false ∧ (m.sec b).rela = some r := fun r hr b hb => by
    have hrela := (hP.links.hasBase r hr).mpr (Option.isSome_iff_exists.mpr ⟨b, hb⟩)
    exact ⟨(by rintro rfl; rw [hxr] at hrela; cases hrela), hP.links.baseOf r hr b hb⟩
  have hR2 : ∀ s, { m2.sec s with name := "" } = { m.sec s with name := "" } := fun s => by
    by_cases hs : s = x
    · subst hs; rw [hm2x]; exact h1.sec s
    · rw [hm2 s hs]; exact h1.sec s
  have hout2 : ∀ s ∉ patched.sections, m2.sec s = m.sec s := fun s hs => by
    rw [hm2 s (by rintro rfl; exact hs hx)]; exact h1.outside s hs
  -- `base` が `x` でなければ、名前の不変条件は `m2` でも成り立つ
  have hnamed2 : ∀ r ∈ patched.sections, ∀ b ∈ (m.sec r).base, b ≠ x →
      (m2.sec r).name = ".rela" ++ (m2.sec b).name := fun r hr b hb hbx => by
    rw [hm2 r (hne r hr b hb).1, hm2 b hbx]; exact h1.named r hr b (by rw [h1.base]; exact hb)
  unfold renameRela at h
  split at h
  · next hr0 =>
    cases h
    refine ⟨hn2.trans h1.nsec, hn2'.trans h1.nsym, fun q => (hs2 q).trans (h1.symSec q), hR2, hout2, fun r hr b hb => ?_⟩
    have hb' : b ∈ (m.sec r).base := by have := congrArg Section.base (hR2 r); exact this ▸ hb
    refine hnamed2 r hr b hb' ?_
    rintro rfl
    have := congrArg Section.rela (hR2 b); dsimp only at this; rw [hr0, (hne r hr b hb').2.2.2] at this; cases this
  · next r0 hr0 =>
    obtain ⟨br, hbr, h⟩ := bind_eq_ok.mp h
    cases h
    have hybr : (m.sec y).rela = some br := by
      rw [← h1.outside y hyP, ← hm2 y hxy]; exact deref_eq_ok.mp hbr
    obtain ⟨hbrB, hbrbase⟩ := hB.links.relaOf y hy br hybr
    have hbrname := hB.named br hbrB y (by rw [hbrbase]; rfl)
    have hm2br : m2.sec br = m.sec br := hout2 br (hdisj br hbrB)
    have hxr0 : (m.sec x).rela = some r0 := by
      have := congrArg Section.rela (hR2 x); dsimp only at this; rw [← this]; exact hr0
    obtain ⟨hr0P, hr0base⟩ := hP.links.relaOf x hx r0 hxr0
    refine ⟨hn2.trans h1.nsec, hn2'.trans h1.nsym, fun q => (hs2 q).trans (h1.symSec q), fun s => ?_, fun s hs => ?_,
      fun r hr b hb => ?_⟩
    · by_cases hs : s = r0
      · subst hs; rw [Mem.modSec_sec_self]; exact hR2 s
      · rw [Mem.modSec_sec_of_ne _ _ hs]; exact hR2 s
    · rw [Mem.modSec_sec_of_ne _ _ (by rintro rfl; exact hs hr0P)]; exact hout2 s hs
    have hb' : b ∈ (m.sec r).base := by
      by_cases hs : r = r0
      · subst hs; rw [Mem.modSec_sec_self] at hb; have := congrArg Section.base (hR2 r); exact this ▸ hb
      · rw [Mem.modSec_sec_of_ne _ _ hs] at hb; have := congrArg Section.base (hR2 r); exact this ▸ hb
    obtain ⟨-, -, hbnr, hbr⟩ := hne r hr b hb'
    have hbr0 : b ≠ r0 := fun e => by
      rw [e, (hP.links.hasBase r0 hr0P).mpr (by rw [hr0base]; rfl)] at hbnr; cases hbnr
    by_cases hrr0 : r = r0
    · subst hrr0
      obtain rfl : b = x := Option.some.inj (hb'.symm.trans hr0base)
      rw [Mem.modSec_sec_self, Mem.modSec_sec_of_ne _ _ hbr0, hm2br, hbrname, hm2x]
    · rw [Mem.modSec_sec_of_ne _ _ hrr0, Mem.modSec_sec_of_ne _ _ hbr0]
      exact hnamed2 r hr b hb' fun e => hrr0 (Option.some.inj (hbr.symm.trans (e ▸ hxr0)))

theorem Renamed.renameStep {m1 m2 : Mem} {p : SymRef} (h1 : Renamed m m1 patched.sections)
    (hp : p ∈ patched.symbols) (h : renameMangledFunction base patched m1 p = .ok m2) : Renamed m m2 patched.sections := by
  dsimp only [renameMangledFunction] at h
  split at h
  · cases h; exact h1
  rw [pure_bind] at h
  split at h
  · cases h; exact h1
  rw [pure_bind] at h
  split at h
  swap
  · cases h; exact h1
  next b hfind =>
  have hb := List.mem_of_find?_eq_some hfind
  split at h
  · cases h; exact h1
  rw [pure_bind] at h
  obtain ⟨s, hs, h⟩ := bind_eq_ok.mp h
  have hsym1 : ∀ q, ((m1.modSym p fun y => { y with name := (m1.sym b).name }).sym q).sec = (m1.sym q).sec :=
    Mem.modSym_symSec m1 p (by intro; rfl)
  have h1' : Renamed m (m1.modSym p fun y => { y with name := (m1.sym b).name }) patched.sections :=
    { h1 with symSec := fun q => (hsym1 q).trans (h1.symSec q) }
  split at h
  · cases h; exact h1'
  rw [pure_bind] at h
  obtain ⟨bs, hbs, h⟩ := bind_eq_ok.mp h
  obtain ⟨m3, hm3, h⟩ := bind_eq_ok.mp h
  have hsP := hP.closed.symSec p hp s (by rw [← h1.symSec]; exact deref_eq_ok.mp hs)
  have hbsB := (hB.closed.symSec b hb bs (by rw [← h1.symSec]; exact deref_eq_ok.mp hbs)).1
  have h3 := h1'.renamePair hP hB hdisj hsP.1 hsP.2 hbsB rfl rfl rfl (fun _ => rfl) hm3
  obtain ⟨name, hname, h⟩ := bind_eq_ok.mp h
  split at h
  swap
  · cases h; exact h3
  next rs hrs =>
  obtain ⟨name', -, h⟩ := bind_eq_ok.mp h
  split at h
  swap
  · cases h; exact h3
  next brs hbrs =>
  obtain ⟨ss, -, h⟩ := bind_eq_ok.mp h
  have hrsP := List.mem_of_find?_eq_some hrs
  have hrsname : (m3.sec rs).name = ".rodata." ++ (m1.sym p).name := by
    have := List.find?_some hrs
    rw [beq_iff_eq] at this
    rw [this, rodataName_ok hname]
  have hrsr : isRelaSection (m.sec rs) = false := by
    cases hr : isRelaSection (m.sec rs)
    · rfl
    obtain ⟨c, hc⟩ := Option.isSome_iff_exists.mp ((hP.links.hasBase rs hrsP).mp hr)
    have := h3.named rs hrsP c (by rw [h3.base]; exact hc)
    rw [hrsname] at this
    exact absurd this.symm (rela_append_ne_rodata _ _)
  exact h3.renamePair hP hB hdisj hrsP hrsr (List.mem_of_find?_eq_some hbrs) (by rfl) (by rfl) (by rfl)
    (by exact Mem.modSym_symSec _ ss (by intro; rfl)) h

/-- `xsplice_rename_mangled_functions` は patched のセクションとシンボルの名前だけを変え、patched の不変条件を保つ。 -/
theorem renameMangledFunctions_prepInv (h : xspliceRenameMangledFunctions m base patched = .ok m') :
    PrepInv m' patched ∧ m'.nsec = m.nsec ∧ m'.nsym = m.nsym := by
  have hr : Renamed m m' patched.sections :=
    @foldlM_mem_invariant _ _ _ (fun m1 => Renamed m m1 patched.sections) _
      (fun _ p hp _ h1 h => h1.renameStep hP hB hdisj hp h) _ _
      ⟨rfl, rfl, fun _ => rfl, fun _ => rfl, fun _ _ => rfl, hP.named⟩ h
  exact ⟨hP.of_renamed hr, hr.nsec, hr.nsym⟩

end Rename

/-! ## 無視するセクションの印 -/

theorem Keeps.modSec {f : Section → Section} (p : SecRef) (hf : ∀ x, (f x).links = x.links) : Keeps m (m.modSec p f) :=
  ⟨rfl, rfl, fun s => by by_cases hs : s = p <;> simp [Mem.modSec_sec, hs, hf], fun _ => rfl⟩

theorem BaseIncluded.modSec {secs : List SecRef} {f : Section → Section} {q : SecRef} (hi : BaseIncluded m secs)
    (hbase : ∀ x, (f x).base = x.base) (hinc : ∀ x, x.included = true → (f x).included = true)
    (hq : (m.sec q).base = none) : BaseIncluded (m.modSec q f) secs := by
  intro r hr hri b hb
  have hrq : r ≠ q := by rintro rfl; rw [Mem.modSec_sec_self, hbase, hq] at hb; cases hb
  rw [Mem.modSec_sec_of_ne _ _ hrq] at hri hb
  by_cases hbq : b = q
  · subst hbq; rw [Mem.modSec_sec_self]; exact hinc _ (hi r hr hri b hb)
  · rw [Mem.modSec_sec_of_ne _ _ hbq]; exact hi r hr hri b hb

theorem markIgnoredSections_prepInv (hi : PrepInv m kelf) (h : xspliceMarkIgnoredSections m kelf = .ok m') :
    PrepInv m' kelf ∧ m'.nsec = m.nsec ∧ m'.nsym = m.nsym := by
  dsimp only [xspliceMarkIgnoredSections] at h
  split at h
  swap
  · cases h; exact ⟨hi, rfl, rfl⟩
  next p hp =>
  obtain ⟨r, hr, h⟩ := bind_eq_ok.mp h
  have hrK := (hi.links.relaOf p (List.mem_of_find?_eq_some hp) r (deref_eq_ok.mp hr)).1
  refine (@foldlM_mem_invariant _ _ _ (fun m1 => PrepInv m1 kelf ∧ Keeps m m1) _
    (fun m1 rela hrela m2 ⟨hi1, hk1⟩ h => ?_) _ _ ⟨hi, .refl m⟩ h).imp_right fun hk => ⟨hk.nsec, hk.nsym⟩
  unfold markIgnoredSection at h
  obtain ⟨strsec, hs, h⟩ := bind_eq_ok.mp h
  have hsK := hi1.closed.symSec rela.sym (hi.closed.relas r hrK rela hrela) strsec (deref_eq_ok.mp hs)
  have hk2 : Keeps m1 (m1.modSec strsec fun x => { x with status := .changed, included := true }) :=
    .modSec strsec (by intro; rfl)
  have hi2 : PrepInv (m1.modSec strsec fun x => { x with status := .changed, included := true }) kelf :=
    hi1.of_keeps hk2 (hi1.baseIncluded.modSec (by intro; rfl) (fun _ _ => rfl) (hi1.links.base_eq_none hsK.1 hsK.2))
  obtain ⟨name, -, h⟩ := bind_eq_ok.mp h
  split at h
  swap
  · cases h
  dsimp only at h
  have hfin : ∀ m3, Frame (m1.modSec strsec fun x => { x with status := .changed, included := true }) m3 →
      PrepInv m3 kelf ∧ Keeps m m3 := fun m3 hf => ⟨hi2.of_frame hf, hk1.trans (hk2.trans hf.keeps)⟩
  split at h <;> cases h
  · exact hfin _ ((Frame.modSec _ (by intro; rfl)).trans (.modSec _ (by intro; rfl)))
  · exact hfin _ (.modSec _ (by intro; rfl))

end XspliceDiff

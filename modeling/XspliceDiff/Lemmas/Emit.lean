import XspliceDiff.Lemmas.Special
import XspliceDiff.Lemmas.Output
import XspliceDiff.Lemmas.Patches

/-!
# 出力のリロケーションのセクションのヘッダ

`main` の後半は、特別なセクションを作り直し、含めた要素を出力のモデルに移し、`.xsplice.strings` と
`.xsplice.funcs` の対を加え、番号を振ってから、リロケーションのセクションの `sh_link` と `sh_info` を書く。
ローダが作る `base` と `rela` のリンクがあり、含めたリロケーションのセクションの `base` も含めてあれば、
出力のどのリロケーションのセクションも、`sh_info` は出力の中の `base` の番号を、`sh_link` は `.symtab` の番号を指す。
各段はセクションの形（`base`、`rela`、名前、型）を変えないので、リンクは段から段へ運ばれる。
-/

namespace XspliceDiff

/-! ## セクションの形 -/

/-- `m'` のセクションは、`m` のものと番号の範囲、`base`、`rela`、名前、型が同じ。シンボルの番号の範囲も同じ。 -/
structure SecShape (m m' : Mem) : Prop where
  nsec : m'.nsec = m.nsec
  nsym : m'.nsym = m.nsym
  base : ∀ s, (m'.sec s).base = (m.sec s).base
  rela : ∀ s, (m'.sec s).rela = (m.sec s).rela
  name : ∀ s, (m'.sec s).name = (m.sec s).name
  shType : ∀ s, (m'.sec s).sh.shType = (m.sec s).sh.shType

namespace SecShape

variable {m m' m'' : Mem}

theorem refl (m : Mem) : SecShape m m := ⟨rfl, rfl, fun _ => rfl, fun _ => rfl, fun _ => rfl, fun _ => rfl⟩

theorem trans (h1 : SecShape m m') (h2 : SecShape m' m'') : SecShape m m'' :=
  ⟨h2.nsec.trans h1.nsec, h2.nsym.trans h1.nsym, fun s => (h2.base s).trans (h1.base s), fun s => (h2.rela s).trans (h1.rela s),
   fun s => (h2.name s).trans (h1.name s), fun s => (h2.shType s).trans (h1.shType s)⟩

theorem of_sec_eq (hsec : m'.sec = m.sec) (hn : m'.nsec = m.nsec) (hn' : m'.nsym = m.nsym) : SecShape m m' :=
  ⟨hn, hn', fun s => by rw [hsec], fun s => by rw [hsec], fun s => by rw [hsec], fun s => by rw [hsec]⟩

theorem modSec {f : Section → Section} (p : SecRef)
    (hf : ∀ x, (f x).base = x.base ∧ (f x).rela = x.rela ∧ (f x).name = x.name ∧ (f x).sh.shType = x.sh.shType) :
    SecShape m (m.modSec p f) := by
  refine ⟨rfl, rfl, fun s => ?_, fun s => ?_, fun s => ?_, fun s => ?_⟩ <;>
    by_cases hs : s = p <;> simp [Mem.modSec_sec, hs, hf]

theorem isRela (h : SecShape m m') (s : SecRef) : isRelaSection (m'.sec s) = isRelaSection (m.sec s) := by
  simp only [isRelaSection, h.shType]

theorem includeSec (m : Mem) (p : SecRef) : SecShape m (m.includeSec p) := modSec p fun _ => ⟨rfl, rfl, rfl, rfl⟩

theorem includeSym (m : Mem) (y : SymRef) : SecShape m (m.includeSym y) := of_sec_eq rfl rfl rfl

theorem foldl {β : Type} {f : Mem → β → Mem} (hf : ∀ (m : Mem) x, SecShape m (f m x)) :
    ∀ (l : List β) (m : Mem), SecShape m (l.foldl f m)
  | [], m => refl m
  | x :: l, m => (hf m x).trans (foldl hf l (f m x))

end SecShape

theorem moveGroupRelas_nsec (o d n : Nat) (m : Mem) (relas : List Rela) :
    (moveGroupRelas o d n m relas).1.nsec = m.nsec := by
  induction relas generalizing m with
  | nil => rfl
  | cons rela relas ih => by_cases h : inGroup o n rela <;> simp [moveGroupRelas, h, ih, Mem.includeSym, Mem.modSym]

theorem moveGroupRelas_nsym (o d n : Nat) (m : Mem) (relas : List Rela) :
    (moveGroupRelas o d n m relas).1.nsym = m.nsym := by
  induction relas generalizing m with
  | nil => rfl
  | cons rela relas ih => by_cases h : inGroup o n rela <;> simp [moveGroupRelas, h, ih, Mem.includeSym, Mem.modSym]

theorem regenerateStep_shape {special : SpecialSection} {kelf : Elf} {sp : SecRef} {src : List UInt8} {cap : Nat}
    {st st' : RegenState} (h : regenerateStep special kelf sp src cap st = .ok st') : SecShape st.mem st'.mem := by
  simp only [regenerateStep, bind_eq_ok] at h
  obtain ⟨n, -, keep, -, h⟩ := h
  cases keep with
  | false =>
    simp only [Bool.not_false, if_true, pure_eq_ok, Except.ok.injEq] at h
    exact h ▸ .refl _
  | true =>
    simp only [Bool.not_true, Bool.false_eq_true, if_false, pure_bind, bind_eq_ok] at h
    obtain ⟨dest, -, h⟩ := h
    cases h
    dsimp only
    exact (SecShape.of_sec_eq (moveGroupRelas_sec ..) (moveGroupRelas_nsec ..) (moveGroupRelas_nsym ..)).trans
      (.modSec sp fun _ => ⟨rfl, rfl, rfl, rfl⟩)

/-! ## ローダが作るリンク -/

/-- ローダが作る `base` と `rela` のリンク：リロケーションのセクションだけが `base` を持ち、その名前は `.rela` で
始まる。`base` はリロケーションのセクションでなく、`base` と `rela` は互いを指す。 -/
structure RelaLinks (m : Mem) (secs : List SecRef) : Prop where
  hasBase : ∀ r ∈ secs, isRelaSection (m.sec r) = true ↔ (m.sec r).base.isSome
  named : ∀ r ∈ secs, isRelaSection (m.sec r) = true → hasPrefix (m.sec r).name ".rela" = true
  baseOf : ∀ r ∈ secs, ∀ b ∈ (m.sec r).base,
    b ∈ secs ∧ isRelaSection (m.sec b) = false ∧ (m.sec b).rela = some r
  relaOf : ∀ b ∈ secs, ∀ r ∈ (m.sec b).rela, r ∈ secs ∧ (m.sec r).base = some b

/-- 含めたセクションの `base` は含めてある。 -/
def BaseIncluded (m : Mem) (secs : List SecRef) : Prop :=
  ∀ r ∈ secs, (m.sec r).included = true → ∀ b ∈ (m.sec r).base, (m.sec b).included = true

instance (m : Mem) (secs : List SecRef) : Decidable (RelaLinks m secs) :=
  decidable_of_iff ((∀ r ∈ secs, isRelaSection (m.sec r) = true ↔ (m.sec r).base.isSome) ∧
      (∀ r ∈ secs, isRelaSection (m.sec r) = true → hasPrefix (m.sec r).name ".rela" = true) ∧
      (∀ r ∈ secs, ∀ b ∈ (m.sec r).base, b ∈ secs ∧ isRelaSection (m.sec b) = false ∧ (m.sec b).rela = some r) ∧
      ∀ b ∈ secs, ∀ r ∈ (m.sec b).rela, r ∈ secs ∧ (m.sec r).base = some b)
    ⟨fun ⟨h1, h2, h3, h4⟩ => ⟨h1, h2, h3, h4⟩, fun ⟨h1, h2, h3, h4⟩ => ⟨h1, h2, h3, h4⟩⟩

instance (m : Mem) (secs : List SecRef) : Decidable (BaseIncluded m secs) :=
  inferInstanceAs (Decidable (∀ r ∈ secs, _))

variable {m m' : Mem} {secs : List SecRef}

theorem RelaLinks.of_shape (hs : SecShape m m') (hl : RelaLinks m secs) : RelaLinks m' secs where
  hasBase r hr := by rw [hs.isRela, hs.base]; exact hl.hasBase r hr
  named r hr := by rw [hs.isRela, hs.name]; exact hl.named r hr
  baseOf r hr b hb := by rw [hs.isRela, hs.rela]; exact hl.baseOf r hr b (hs.base r ▸ hb)
  relaOf b hb r hr := by rw [hs.base]; exact hl.relaOf b hb r (hs.rela b ▸ hr)

theorem RelaLinks.base_eq_none (hl : RelaLinks m secs) {p : SecRef} (hp : p ∈ secs)
    (h : isRelaSection (m.sec p) = false) : (m.sec p).base = none := by
  have := hl.hasBase p hp
  rw [h] at this
  cases hb : (m.sec p).base
  · rfl
  · simp [hb] at this

theorem RelaLinks.not_rela (hl : RelaLinks m secs) {p : SecRef} (hp : p ∈ secs)
    (hname : hasPrefix (m.sec p).name ".rela" = false) : isRelaSection (m.sec p) = false := by
  cases h : isRelaSection (m.sec p)
  · rfl
  · rw [hl.named p hp h] at hname; cases hname

theorem BaseIncluded.of_sec_eq (h : m'.sec = m.sec) (hi : BaseIncluded m secs) : BaseIncluded m' secs := by
  unfold BaseIncluded; rw [h]; exact hi

theorem BaseIncluded.includeSec (hi : BaseIncluded m secs) {q : SecRef}
    (hq : ∀ b ∈ (m.sec q).base, (m.sec b).included = true ∨ b = q) : BaseIncluded (m.includeSec q) secs := by
  intro r hr hri b hb
  by_cases hbq : b = q
  · simp [Mem.includeSec, hbq]
  rw [Mem.includeSec, Mem.modSec_sec_of_ne _ _ hbq]
  by_cases hrq : r = q
  · subst hrq
    simp only [Mem.includeSec, Mem.modSec_sec_self] at hb
    exact (hq b hb).resolve_right hbq
  · simp only [Mem.includeSec, Mem.modSec_sec_of_ne _ _ hrq] at hri hb
    exact hi r hr hri b hb

theorem BaseIncluded.pair (hl : RelaLinks m secs) (hi : BaseIncluded m secs) {sp b : SecRef} {v : Bool}
    (hsp : sp ∈ secs) (hb : (m.sec sp).base = some b) (hs : SecShape m m')
    (hinc : ∀ q, (m'.sec q).included = if q = sp ∨ q = b then v else (m.sec q).included) : BaseIncluded m' secs := by
  obtain ⟨-, hbnr, hbrela⟩ := hl.baseOf sp hsp b hb
  have hsprela : isRelaSection (m.sec sp) = true := (hl.hasBase sp hsp).mpr (by simp [hb])
  intro r hr hri c hc
  rw [hs.base] at hc
  rw [hinc] at hri ⊢
  by_cases hr1 : r = sp ∨ r = b
  · rw [if_pos hr1] at hri
    rcases hr1 with rfl | rfl
    · rw [Option.mem_def, hb, Option.some.injEq] at hc
      rw [if_pos (.inr hc.symm)]; exact hri
    · rw [hl.base_eq_none hr hbnr] at hc; cases hc
  · rw [if_neg hr1] at hri
    obtain ⟨-, hcnr, hcrela⟩ := hl.baseOf r hr c hc
    have hc1 : ¬(c = sp ∨ c = b) := by
      rintro (rfl | rfl)
      · rw [hsprela] at hcnr; cases hcnr
      · exact hr1 (.inl (Option.some.inj (hcrela.symm.trans hbrela)))
    rw [if_neg hc1]; exact hi r hr hri c hc

/-! ## 特別なセクション -/

theorem modSec_pair_included (m : Mem) (sp b : SecRef) {f g : Section → Section} {v : Bool}
    (hf : ∀ x, (f x).included = v) (hg : ∀ x, (g x).included = v) (q : SecRef) :
    (((m.modSec sp f).modSec b g).sec q).included = if q = sp ∨ q = b then v else (m.sec q).included := by
  by_cases hqb : q = b
  · subst hqb; simp [hg]
  · by_cases hqs : q = sp
    · subst hqs; simp [hqb, hf]
    · simp [hqb, hqs]

theorem regenerate_shape {special : SpecialSection} {kelf : Elf} {sp : SecRef} {groups : List (Nat × Nat)}
    (hok : xspliceRegenerateSpecialSection special m kelf sp = .ok (m', groups)) :
    SecShape m m' ∧ ∃ b v, (m.sec sp).base = some b ∧
      ∀ q, (m'.sec q).included = if q = sp ∨ q = b then v else (m.sec q).included := by
  obtain ⟨b, st, hb, hloop, hinv, -, -, hcase⟩ := regenerate_ok_cases hok
  have hst : SecShape m st.mem :=
    (@regenerateLoop_induct _ _ _ _ _ (fun st => SecShape m st.mem)
      (fun _ _ h _ hs => h.trans (regenerateStep_shape hs)) _ _ _ (.refl m) hloop).1
  rcases hcase with ⟨-, rfl⟩ | ⟨-, rfl⟩ <;>
    exact ⟨(hst.trans (.modSec sp (by intro; exact ⟨rfl, rfl, rfl, rfl⟩))).trans
      (.modSec b (by intro; exact ⟨rfl, rfl, rfl, rfl⟩)), b, _, hb, fun q =>
        (modSec_pair_included _ _ _ (by intro; rfl) (by intro; rfl) q).trans (by rw [hinv.secIncluded])⟩

theorem foldlM_invariant {α β : Type} {f : α → β → Except Abort α} {P : α → Prop}
    (hf : ∀ a x a', P a → f a x = .ok a' → P a') : ∀ {l : List β} {a a' : α}, P a → l.foldlM f a = .ok a' → P a'
  | [], _, _, ha, h => Except.ok.inj h ▸ ha
  | x :: l, a, _, ha, h => by
    rw [List.foldlM_cons, bind_eq_ok] at h
    obtain ⟨a1, h1, h2⟩ := h
    exact foldlM_invariant hf (hf a x a1 ha h1) h2

theorem foldl_invariant {α β : Type} {f : α → β → α} {P : α → Prop} :
    ∀ (l : List β), (∀ a, ∀ x ∈ l, P a → P (f a x)) → ∀ a, P a → P (l.foldl f a)
  | [], _, _, h => h
  | x :: l, hf, a, h => foldl_invariant l (fun a y hy => hf a y (List.mem_cons_of_mem x hy)) _
      (hf a x (List.mem_cons_self x l) h)

theorem includeAltinstrReplacement_links (kelf : Elf) (hl : RelaLinks m secs) {p : SecRef} (hp : p ∈ secs)
    (hi : BaseIncluded m secs) :
    SecShape m (includeAltinstrReplacement kelf m p) ∧ BaseIncluded (includeAltinstrReplacement kelf m p) secs := by
  have hsym : ∀ (m : Mem) y, (if (m.sym y).sec = some p then m.includeSym y else m).sec = m.sec := fun m y => by
    split_ifs <;> rfl
  have hshape : ∀ (m : Mem) y, SecShape m (if (m.sym y).sec = some p then m.includeSym y else m) := fun m y => by
    split_ifs; exacts [.includeSym m y, .refl m]
  unfold includeAltinstrReplacement
  split_ifs with hname
  · exact ⟨.refl m, hi⟩
  have hbase : (m.sec p).base = none := hl.base_eq_none hp (hl.not_rela hp (by rw [not_not.mp hname]; decide))
  have hi1 : BaseIncluded (m.includeSec p) secs := hi.includeSec (by simp [hbase])
  have hs1 := (SecShape.includeSec m p).trans (.foldl hshape kelf.symbols _)
  have hi2 := hi1.of_sec_eq (Mem.foldl_sec_eq hsym kelf.symbols _)
  dsimp only
  split
  · exact ⟨hs1, hi2⟩
  · rename_i r hr
    have hrb := (hl.relaOf p hp r (hs1.rela p ▸ hr)).2
    refine ⟨hs1.trans ((SecShape.includeSec _ r).trans (.foldl (fun m (rela : Rela) => .includeSym m rela.sym) _ _)),
      (hi2.includeSec fun b hb => .inl ?_).of_sec_eq (Mem.foldl_sec_eq (by intros; rfl) _ _)⟩
    rw [hs1.base, hrb, Option.mem_def, Option.some.injEq] at hb
    subst hb
    rw [Mem.foldl_sec_eq hsym kelf.symbols _]
    simp [Mem.includeSec]

/-- `xsplice_process_special_sections` はセクションの形を変えず、含めたセクションの `base` を含めたままにする。 -/
theorem processSpecialSections_links {kelf : Elf} (hl : RelaLinks m kelf.sections)
    (hi : BaseIncluded m kelf.sections) (h : xspliceProcessSpecialSections m kelf = .ok m') :
    SecShape m m' ∧ BaseIncluded m' kelf.sections := by
  simp only [xspliceProcessSpecialSections, bind_eq_ok, pure_eq_ok] at h
  obtain ⟨m1, hfold, h⟩ := h
  cases h
  have h1 : SecShape m m1 ∧ BaseIncluded m1 kelf.sections := by
    refine @foldlM_invariant _ _ _ (fun m1 => SecShape m m1 ∧ BaseIncluded m1 kelf.sections) ?_ _ _ _ ⟨.refl m, hi⟩ hfold
    rintro m2 special m3 ⟨hs2, hi2⟩ hstep
    split at hstep
    · rename_i b hb
      split at hstep
      · rename_i r hr
        obtain ⟨⟨m4, _⟩, hreg, hm⟩ := bind_eq_ok.mp hstep
        cases hm
        have hl2 := hl.of_shape hs2
        have hbmem : b ∈ kelf.sections := List.mem_of_find?_eq_some hb
        obtain ⟨hrmem, -⟩ := hl2.relaOf b hbmem r hr
        obtain ⟨hs4, b', v, hb', hinc⟩ := regenerate_shape hreg
        exact ⟨hs2.trans hs4, hi2.pair hl2 hrmem hb' hs4 hinc⟩
      · exact Except.ok.inj hstep ▸ ⟨hs2, hi2⟩
    · exact Except.ok.inj hstep ▸ ⟨hs2, hi2⟩
  refine foldl_invariant (P := fun m2 => SecShape m m2 ∧ BaseIncluded m2 kelf.sections) kelf.sections ?_ m1 h1
  rintro m2 p hp ⟨hs2, hi2⟩
  obtain ⟨hs3, hi3⟩ := includeAltinstrReplacement_links kelf (hl.of_shape hs2) hp hi2
  exact ⟨hs2.trans hs3, hi3⟩

/-- `secs` のどのリロケーションのセクションも、`secs` の中に `base` を持つ。 -/
def RelaClosed (m : Mem) (secs : List SecRef) : Prop :=
  ∀ r ∈ secs, isRelaSection (m.sec r) = true → ∃ b ∈ secs, (m.sec r).base = some b

theorem RelaClosed.of_shape (hs : SecShape m m') (h : RelaClosed m secs) : RelaClosed m' secs := by
  intro r hr hrela
  rw [hs.isRela] at hrela
  rw [hs.base]
  exact h r hr hrela

theorem RelaClosed.of_sec_eq (hsec : m'.sec = m.sec) (h : RelaClosed m secs) : RelaClosed m' secs := by
  unfold RelaClosed; rw [hsec]; exact h

theorem RelaClosed.append (h : RelaClosed m secs) (hbound : ∀ s ∈ secs, s < m.nsec)
    (hsame : ∀ s < m.nsec, m'.sec s = m.sec s) {new : List SecRef}
    (hnew : ∀ r ∈ new, isRelaSection (m'.sec r) = true → ∃ b ∈ secs ++ new, (m'.sec r).base = some b) :
    RelaClosed m' (secs ++ new) := by
  intro r hr hrela
  rcases List.mem_append.mp hr with hr | hr
  · rw [hsame r (hbound r hr)] at hrela ⊢
    obtain ⟨b, hb, hbase⟩ := h r hr hrela
    exact ⟨b, List.mem_append_left _ hb, hbase⟩
  · exact hnew r hr hrela

theorem nodup_append_fresh {secs new : List SecRef} {n : Nat} (hnd : secs.Nodup) (hbound : ∀ s ∈ secs, s < n)
    (hnew : new.Nodup) (hfresh : ∀ s ∈ new, n ≤ s) : (secs ++ new).Nodup :=
  List.nodup_append.mpr ⟨hnd, hnew, fun s hs hs' => Nat.lt_irrefl s (Nat.lt_of_lt_of_le (hbound s hs) (hfresh s hs'))⟩

theorem SecShape.migrateSection (m : Mem) (p : SecRef) : SecShape m (migrateSection m p) :=
  .modSec p fun _ => ⟨rfl, rfl, rfl, rfl⟩

theorem SecShape.migrateSymbol (m : Mem) (p : SymRef) : SecShape m (migrateSymbol m p) := .of_sec_eq rfl rfl rfl

/-- `xsplice_migrate_included_elements` はセクションの形を変えず、出力のリロケーションのセクションの `base` は
出力にある。 -/
theorem migrate_relaClosed {kelf : Elf} (hl : RelaLinks m kelf.sections) (hi : BaseIncluded m kelf.sections) :
    SecShape m (xspliceMigrateIncludedElements m kelf).1 ∧
      RelaClosed (xspliceMigrateIncludedElements m kelf).1 (xspliceMigrateIncludedElements m kelf).2.1.sections := by
  have hs : SecShape m (xspliceMigrateIncludedElements m kelf).1 :=
    (SecShape.foldl SecShape.migrateSection _ _).trans (.foldl SecShape.migrateSymbol _ _)
  refine ⟨hs, RelaClosed.of_shape hs fun r hr hrela => ?_⟩
  obtain ⟨hrmem, hrinc⟩ := List.mem_filter.mp hr
  obtain ⟨b, hb⟩ := Option.isSome_iff_exists.mp ((hl.hasBase r hrmem).mp hrela)
  exact ⟨b, List.mem_filter.mpr ⟨(hl.baseOf r hrmem b hb).1, hi r hrmem hrinc b hb⟩, hb⟩

theorem createStringsElements_new_not_rela (m : Mem) (out : Elf) :
    isRelaSection ((xspliceCreateStringsElements m out).1.sec m.nsec) = false := by
  simp [xspliceCreateStringsElements, Mem.allocSec, Mem.allocSym, isRelaSection]
  decide

theorem createPatchesSections_headers {tgt : Target} {table : LookupTable} {hint : String} {resolve : Bool}
    {m0 m1 : Mem} {k0 k1 : Elf} (h : xspliceCreatePatchesSections tgt table hint resolve m0 k0 = .ok (m1, k1)) :
    (m1.sec m0.nsec).sh.shType = SHT_PROGBITS ∧ (m1.sec (m0.nsec + 1)).sh.shType = SHT_RELA ∧
      (m1.sec (m0.nsec + 1)).base = some m0.nsec ∧ (m1.sec (m0.nsec + 1)).name = ".rela.xsplice.funcs" := by
  dsimp only [xspliceCreatePatchesSections] at h
  generalize hcp : createSectionPair m0 k0 _ _ _ = cp at h
  obtain ⟨mA, kA, sp⟩ := cp
  obtain ⟨rfl, rfl, -, -, -, hrela, hnil⟩ := createSectionPair_spec hcp
  dsimp only at h
  rw [hrela, Option.getD_some] at h
  split at h
  · rename_i strsym _
    obtain ⟨⟨mB, kB, n⟩, hfold, h⟩ := bind_eq_ok.mp h
    split at h
    · cases h
    obtain ⟨rfl, rfl⟩ := Prod.mk.inj (Except.ok.inj h)
    have hinit : Emitted tgt hint m0.nsec (m0.nsec + 1) strsym mA { k0 with sections := k0.sections ++ [m0.nsec, m0.nsec + 1] } []
        (mA, { k0 with sections := k0.sections ++ [m0.nsec, m0.nsec + 1] }, 0) :=
      ⟨rfl, rfl, fun _ _ _ => rfl, ⟨_, rfl⟩, rfl, rfl, by rw [hnil]; exact PatchRelas.nil⟩
    obtain ⟨-, -, -, ⟨d, hsp⟩, hrp, -, -⟩ := Emitted.foldlM (Nat.succ_ne_self _) _ _ _ _ hinit hfold
    have hsh := congrArg Section.sh hrp
    have hbase := congrArg Section.base hrp
    have hname := congrArg Section.name hrp
    dsimp only at hsh hbase hname hsp
    rw [hsp, hsh, hbase, hname]
    simp only [createSectionPair, Prod.mk.injEq] at hcp
    obtain ⟨rfl, -, -⟩ := hcp
    simp [Mem.allocSec, Mem.modSec]
  · cases h

/-! ## 番号とヘッダ -/

theorem SecShape.reindexSection_foldl : ∀ (L : List SecRef) (m : Mem) (i : Nat), SecShape m (L.foldl reindexSection (m, i)).1
  | [], _, _ => .refl _
  | p :: L, m, i => (SecShape.modSec p (by intro; exact ⟨rfl, rfl, rfl, rfl⟩)).trans (reindexSection_foldl L
      (m.modSec p fun x => { x with index := i }) (i + 1))

theorem SecShape.reindexSymbol_foldl : ∀ (L : List SymRef) (m : Mem) (i : Nat), SecShape m (L.foldl reindexSymbol (m, i)).1
  | [], _, _ => .refl _
  | p :: L, m, i => (SecShape.of_sec_eq rfl rfl rfl : SecShape m (reindexSymbol (m, i) p).1).trans
      (reindexSymbol_foldl L _ (i + 1))

theorem stringsPatches_sections {tgt : Target} {table : LookupTable} {hint : String} {resolve : Bool}
    {m m4 : Mem} {out out4 : Elf} (hnd : out.sections.Nodup) (hb : ∀ s ∈ out.sections, s < m.nsec)
    (h : xspliceCreatePatchesSections tgt table hint resolve (xspliceCreateStringsElements m out).1
      (xspliceCreateStringsElements m out).2 = .ok (m4, out4)) :
    out4.sections = out.sections ++ [m.nsec, m.nsec + 1, m.nsec + 2] ∧ out4.sections.Nodup := by
  obtain ⟨hn3, -, -, -, -, -, -, hout3⟩ := createStringsElements_spec m out
  obtain ⟨-, -, -, -, -, -, hout4, -⟩ := createPatchesSections_ok h
  have hsecs : out4.sections = out.sections ++ [m.nsec, m.nsec + 1, m.nsec + 2] := by
    rw [hout4, hout3, hn3]; simp
  refine ⟨hsecs, ?_⟩
  rw [hsecs]
  exact nodup_append_fresh hnd hb (by simp) fun s (hs : s ∈ [m.nsec, m.nsec + 1, m.nsec + 2]) => by
    simp at hs; rcases hs with rfl | rfl | rfl <;> omega

/-- `.xsplice.strings` のシンボルは新しい番号で出力のシンボルの列の後ろに加わり、ほかのシンボルは変わらない。 -/
theorem stringsPatches_symbols {tgt : Target} {table : LookupTable} {hint : String} {resolve : Bool}
    {m m4 : Mem} {out out4 : Elf} (hnd : out.symbols.Nodup) (hb : ∀ y ∈ out.symbols, y < m.nsym)
    (h : xspliceCreatePatchesSections tgt table hint resolve (xspliceCreateStringsElements m out).1
      (xspliceCreateStringsElements m out).2 = .ok (m4, out4)) :
    out4.symbols = out.symbols ++ [m.nsym] ∧ out4.symbols.Nodup ∧ ∀ y ∈ out.symbols, m4.sym y = m.sym y := by
  obtain ⟨-, -, -, hold, -, -, -, hout3⟩ := createStringsElements_spec m out
  obtain ⟨-, -, hsym4, -, -, -, hout4, -⟩ := createPatchesSections_ok h
  have hsyms : out4.symbols = out.symbols ++ [m.nsym] := by rw [hout4, hout3]
  refine ⟨hsyms, hsyms ▸ nodup_append_fresh hnd hb (List.nodup_singleton _) fun y hy => (List.mem_singleton.mp hy).ge,
    fun y hy => ?_⟩
  rw [hsym4]; exact hold y (hb y hy)

theorem reindexElements_sec {kelf : Elf} (hnd : kelf.sections.Nodup) :
    SecShape m (xspliceReindexElements m kelf) ∧
      ∀ j s, kelf.sections[j]? = some s → ((xspliceReindexElements m kelf).sec s).index = j + 1 :=
  ⟨(SecShape.reindexSection_foldl _ _ _).trans (SecShape.reindexSymbol_foldl _ _ _), reindexElements_secIndex hnd⟩

/-- リロケーションのセクション `r` のヘッダの `sh_link` は `.symtab` の番号、`sh_info` は `base` の番号である。 -/
def HeaderLinked (m : Mem) (symtab r : SecRef) : Prop :=
  (m.sec r).sh.shLink = (m.sec symtab).index ∧ (m.sec r).sh.shInfo = (m.base (m.sec r)).index

theorem base_index_eq (hs : SecShape m m') (hi : ∀ s, (m'.sec s).index = (m.sec s).index) (r : SecRef) :
    (m'.base (m'.sec r)).index = (m.base (m.sec r)).index := by
  unfold Mem.base
  rw [hs.base]
  cases (m.sec r).base
  · rfl
  · exact hi _

theorem HeaderLinked.frame {symtab r : SecRef} (hs : SecShape m m') (hi : ∀ s, (m'.sec s).index = (m.sec s).index)
    (hr : m'.sec r = m.sec r) (h : HeaderLinked m symtab r) : HeaderLinked m' symtab r := by
  unfold HeaderLinked
  rw [base_index_eq hs hi, hi, hr]
  exact h

/-- `main` の終わりのループは、セクションの形と番号を変えず、列のどのリロケーションのセクションのヘッダも
`.symtab` と `base` の番号を指すようにする。 -/
theorem setRelaSectionLinks_ok {kelf : Elf} (h : xspliceSetRelaSectionLinks m kelf = .ok m') :
    ∃ symtab, findSectionByName m kelf.sections ".symtab" = some symtab ∧ SecShape m m' ∧
      (∀ s, (m'.sec s).index = (m.sec s).index) ∧
      ∀ r ∈ kelf.sections, isRelaSection (m.sec r) = true → HeaderLinked m' symtab r := by
  dsimp only [xspliceSetRelaSectionLinks] at h
  cases hs : findSectionByName m kelf.sections ".symtab" with
  | none => rw [hs, deref_none, error_bind] at h; cases h
  | some symtab =>
    rw [hs, deref_some, ok_bind] at h
    cases h
    refine ⟨symtab, rfl, ?_⟩
    generalize hF : (fun (m : Mem) (p : SecRef) => if !isRelaSection (m.sec p) then m else m.modSec p fun x =>
      { x with sh := { x.sh with shLink := (m.sec symtab).index, shInfo := (m.base x).index } }) = F
    -- 一周は形と番号を変えず、`p` のヘッダを書き、ほかのセクションには触れない
    have hstep : ∀ m p, SecShape m (F m p) ∧ (∀ s, ((F m p).sec s).index = (m.sec s).index) ∧
        ∀ r, isRelaSection (m.sec r) = true → (HeaderLinked m symtab r ∨ r = p) → HeaderLinked (F m p) symtab r := by
      intro m p
      subst hF
      dsimp only
      split_ifs with hp
      · exact ⟨.refl m, fun _ => rfl, fun r hr h => h.resolve_right (by rintro rfl; simp [hr] at hp)⟩
      have hs : SecShape m (m.modSec p fun x =>
          { x with sh := { x.sh with shLink := (m.sec symtab).index, shInfo := (m.base x).index } }) :=
        .modSec p fun _ => ⟨rfl, rfl, rfl, rfl⟩
      have hi : ∀ s, ((m.modSec p fun x =>
          { x with sh := { x.sh with shLink := (m.sec symtab).index, shInfo := (m.base x).index } }).sec s).index =
          (m.sec s).index := fun s => by
        by_cases hsp : s = p <;> simp [hsp]
      refine ⟨hs, hi, fun r _ hr => ?_⟩
      by_cases hrp : r = p
      · subst hrp
        unfold HeaderLinked
        rw [base_index_eq hs hi, hi]
        simp
      · exact (hr.resolve_right hrp).frame hs hi (by simp [hrp])
    have hrun : ∀ (L : List SecRef) (m : Mem), SecShape m (L.foldl F m) ∧
        (∀ s, ((L.foldl F m).sec s).index = (m.sec s).index) ∧
        ∀ r, isRelaSection (m.sec r) = true → (r ∈ L ∨ HeaderLinked m symtab r) → HeaderLinked (L.foldl F m) symtab r := by
      intro L
      induction L with
      | nil => exact fun m => ⟨.refl m, fun _ => rfl, fun r _ h => h.resolve_left (List.not_mem_nil r)⟩
      | cons p L ih =>
        intro m
        obtain ⟨hs1, hi1, hl1⟩ := hstep m p
        obtain ⟨hs2, hi2, hl2⟩ := ih (F m p)
        refine ⟨hs1.trans hs2, fun s => (hi2 s).trans (hi1 s), fun r hr h => hl2 r (by rwa [hs1.isRela]) ?_⟩
        by_cases hrL : r ∈ L
        · exact .inl hrL
        · exact .inr (hl1 r hr (h.symm.imp_right fun h => (List.mem_cons.mp h).resolve_right hrL))
    obtain ⟨hs', hi', hl'⟩ := hrun kelf.sections m
    exact ⟨hs', hi', fun r hr hrela => hl' r hrela (.inl hr)⟩

/-! ## `main` の後半 -/

theorem setRelaSectionLinks_sym {kelf : Elf} (h : xspliceSetRelaSectionLinks m kelf = .ok m') : m'.sym = m.sym := by
  obtain ⟨symtab, -, h⟩ := bind_eq_ok.mp h
  cases h
  exact Mem.foldl_sym_eq (fun m p => by dsimp only; split <;> rfl) _ _

/-- `main` の後半が出力のモデルを作れば、各段は成功し、その答えを次の段に渡している。 -/
theorem mainEmit_ok {tgt : Target} {table : LookupTable} {resolve : Bool} {patched out : Elf}
    (h : mainEmit tgt table resolve m patched = .ok (.written m' out)) :
    ∃ m1 hint m4 out4 m5, xspliceProcessSpecialSections m patched = .ok m1 ∧
      xspliceVerifyPatchability m1 patched = .ok () ∧
      (∃ f, (xspliceMigrateIncludedElements m1 patched).2.1.symbols.find?
          (fun y => ((xspliceMigrateIncludedElements m1 patched).1.sym y).type = STT_FILE) = some f ∧
        hint = ((xspliceMigrateIncludedElements m1 patched).1.sym f).name) ∧
      xspliceCreatePatchesSections tgt table hint resolve
        (xspliceCreateStringsElements (xspliceMigrateIncludedElements m1 patched).1
          (xspliceMigrateIncludedElements m1 patched).2.1).1
        (xspliceCreateStringsElements (xspliceMigrateIncludedElements m1 patched).1
          (xspliceMigrateIncludedElements m1 patched).2.1).2 = .ok (m4, out4) ∧
      xspliceBuildStringsSectionData m4 out4 = .ok m5 ∧
      out = xspliceReorderSymbols (xspliceRenameLocalSymbols m5 out4 hint) out4 ∧
      xspliceSetRelaSectionLinks (xspliceReindexElements (xspliceRenameLocalSymbols m5 out4 hint) out) out = .ok m' := by
  rw [mainEmit, bind_eq_ok] at h
  obtain ⟨m1, hspec, h⟩ := h
  rw [bind_eq_ok] at h
  obtain ⟨⟨⟩, hverify, h⟩ := h
  dsimp only at h
  split at h
  swap
  · cases h
  rename_i f hf
  rw [bind_eq_ok] at h
  obtain ⟨⟨m4, out4⟩, hpatch, h⟩ := h
  rw [bind_eq_ok] at h
  obtain ⟨m5, hbuild, h⟩ := h
  rw [bind_eq_ok] at h
  obtain ⟨m9, hlinks, h⟩ := h
  cases h
  exact ⟨m1, _, m4, out4, m5, hspec, hverify, ⟨f, hf, rfl⟩, hpatch, hbuild, rfl, hlinks⟩

theorem setRelaSectionLinks_headers {out : Elf} (h : xspliceSetRelaSectionLinks m out = .ok m')
    (hc : RelaClosed m out.sections) (hidx : ∀ j s, out.sections[j]? = some s → (m.sec s).index = j + 1) :
    ∀ r ∈ out.sections, isRelaSection (m'.sec r) = true →
      ∃ b j k symtab, (m'.sec r).base = some b ∧ out.sections[j]? = some b ∧ (m'.sec r).sh.shInfo = j + 1 ∧
        out.sections[k]? = some symtab ∧ (m'.sec symtab).name = ".symtab" ∧ (m'.sec r).sh.shLink = k + 1 := by
  obtain ⟨symtab, hsym, hs9, hi9, hl9⟩ := setRelaSectionLinks_ok h
  intro r hr hrela
  rw [hs9.isRela] at hrela
  obtain ⟨b, hb, hbase⟩ := hc r hr hrela
  obtain ⟨hlink, hinfo⟩ := hl9 r hr hrela
  obtain ⟨j, hj⟩ := List.mem_iff_getElem?.mp hb
  obtain ⟨k, hk⟩ := List.mem_iff_getElem?.mp (List.mem_of_find?_eq_some hsym)
  refine ⟨b, j, k, symtab, by rw [hs9.base]; exact hbase, hj, ?_, hk, ?_, ?_⟩
  · rw [hinfo, Mem.base, hs9.base, hbase]
    exact (hi9 b).trans (hidx j b hj)
  · rw [hs9.name]; simpa using List.find?_some hsym
  · rw [hlink, hi9]; exact hidx k symtab hk

/-- ローダのリンクがあり、含めたセクションの `base` が含めてあれば、`main` の後半がヘッダを書く直前のモデルでは、
出力のリロケーションのセクションの `base` は出力にあり、出力の位置 `j` のセクションの番号は `j + 1` である。 -/
theorem mainEmit_beforeHeaders {tgt : Target} {table : LookupTable} {resolve : Bool} {patched out : Elf}
    (hnd : patched.sections.Nodup) (hbound : ∀ s ∈ patched.sections, s < m.nsec)
    (hl : RelaLinks m patched.sections) (hi : BaseIncluded m patched.sections)
    (h : mainEmit tgt table resolve m patched = .ok (.written m' out)) :
    ∃ m8, xspliceSetRelaSectionLinks m8 out = .ok m' ∧ RelaClosed m8 out.sections ∧
      ∀ j s, out.sections[j]? = some s → (m8.sec s).index = j + 1 := by
  obtain ⟨m1, hint, m4, out4, m5, hspec, -, -, hpatch, hbuild, rfl, hlinks⟩ := mainEmit_ok h
  obtain ⟨hs1, hi1⟩ := processSpecialSections_links hl hi hspec
  -- 移した後：含めたセクションを順に並べた列
  obtain ⟨hs2, hc2⟩ := migrate_relaClosed (hl.of_shape hs1) hi1
  generalize hmig : xspliceMigrateIncludedElements m1 patched = mig at hpatch hs2 hc2
  have hsecs2 : mig.2.1.sections = patched.sections.filter (fun p => (m1.sec p).included) := by rw [← hmig]; rfl
  have hb2 : ∀ s ∈ mig.2.1.sections, s < mig.1.nsec := fun s hs => by
    rw [hs2.nsec, hs1.nsec]; exact hbound s (List.mem_filter.mp (hsecs2 ▸ hs)).1
  have hnd4 := (stringsPatches_sections (hsecs2 ▸ hnd.filter _) hb2 hpatch).2
  -- `.xsplice.strings` を加えた後
  obtain ⟨hn3, hsame3, -, -, -, -, -, hout3⟩ := createStringsElements_spec mig.1 mig.2.1
  have hnew3 := createStringsElements_new_not_rela mig.1 mig.2.1
  generalize hcs : xspliceCreateStringsElements mig.1 mig.2.1 = cs at hpatch hn3 hsame3 hout3 hnew3
  obtain ⟨m3, out3⟩ := cs
  dsimp only at hpatch hn3 hsame3 hout3 hnew3
  subst hout3
  have hc3 : RelaClosed m3 (mig.2.1.sections ++ [mig.1.nsec]) :=
    hc2.append hb2 hsame3 fun r hr hrela => by
      rw [List.mem_singleton] at hr; subst hr; rw [hnew3] at hrela; cases hrela
  have hb3 : ∀ s ∈ mig.2.1.sections ++ [mig.1.nsec], s < m3.nsec := fun s hs => by
    rcases List.mem_append.mp hs with hs | hs
    · exact hn3 ▸ Nat.lt_succ_of_lt (hb2 s hs)
    · rw [List.mem_singleton.mp hs, hn3]; exact Nat.lt_succ_self _
  -- `.xsplice.funcs` とそのリロケーションのセクションを加えた後
  obtain ⟨-, -, -, hsame4, -, -, hout4, -⟩ := createPatchesSections_ok hpatch
  obtain ⟨hty4, -, hbase4, -⟩ := createPatchesSections_headers hpatch
  have hsecs4 : out4.sections = (mig.2.1.sections ++ [mig.1.nsec]) ++ [m3.nsec, m3.nsec + 1] := by rw [hout4]
  have hc4 : RelaClosed m4 out4.sections := hsecs4 ▸ hc3.append hb3 hsame4 fun r hr hrela => by
    rcases List.mem_pair.mp hr with rfl | rfl
    · rw [isRelaSection, hty4] at hrela; cases hrela
    · exact ⟨m3.nsec, by simp, hbase4⟩
  -- 文字列の表を書き、名前を変え、番号を振る
  obtain ⟨sp, -, hm5⟩ := buildStringsSectionData_ok hbuild
  have hs5 : SecShape m4 m5 := hm5 ▸ .modSec sp (by intro; exact ⟨rfl, rfl, rfl, rfl⟩)
  have hc6 := (hc4.of_shape hs5).of_sec_eq (renameLocalSymbols_sec m5 out4 hint)
  generalize xspliceRenameLocalSymbols m5 out4 hint = m6 at hc6 hlinks ⊢
  obtain ⟨hs8, hidx⟩ := reindexElements_sec (m := m6) (show (xspliceReorderSymbols m6 out4).sections.Nodup from hnd4)
  exact ⟨_, hlinks, hc6.of_shape hs8, hidx⟩

/-- ローダのリンクがあり、含めたセクションの `base` が含めてあれば、`main` の後半が作る出力のどのリロケーションの
セクションも、`base` が出力の位置 `j` にあって `sh_info = j + 1` であり、`.symtab` が出力の位置 `k` にあって
`sh_link = k + 1` である（番号 0 は NULL のセクション）。 -/
theorem emit_rela_headers_consistent {tgt : Target} {table : LookupTable} {resolve : Bool} {patched out : Elf}
    (hnd : patched.sections.Nodup) (hbound : ∀ s ∈ patched.sections, s < m.nsec)
    (hl : RelaLinks m patched.sections) (hi : BaseIncluded m patched.sections)
    (h : mainEmit tgt table resolve m patched = .ok (.written m' out)) :
    ∀ r ∈ out.sections, isRelaSection (m'.sec r) = true →
      ∃ b j k symtab, (m'.sec r).base = some b ∧ out.sections[j]? = some b ∧ (m'.sec r).sh.shInfo = j + 1 ∧
        out.sections[k]? = some symtab ∧ (m'.sec symtab).name = ".symtab" ∧ (m'.sec r).sh.shLink = k + 1 := by
  obtain ⟨m8, hlinks, hc, hidx⟩ := mainEmit_beforeHeaders hnd hbound hl hi h
  exact setRelaSectionLinks_headers hlinks hc hidx

/-- 例の入力：`main` の後半に入るときの patched のモデル。`CHANGED` の大域関数 `f` の `.text.f` と
`.rela.text.f`、`.symtab`、ファイルのシンボル `x.c` を含めてある。 -/
def emitExample : Mem := Mem.ofLists
  [{ name := ".text.f", sh := { shType := SHT_PROGBITS, shFlags := 6, shSize := 4 },
     data := { dBuf := [0xc3, 0, 0, 0], dSize := 4 }, rela := some 1, sym := some 2, index := 1, included := true,
     status := .changed },
   { name := ".rela.text.f", sh := { shType := SHT_RELA, shEntsize := 24 }, base := some 0, index := 2,
     included := true, status := .changed },
   { name := ".symtab", sh := { shType := 2 }, index := 3, included := true, status := .same }]
  [{ name := "", included := true },
   { name := "x.c", type := STT_FILE, sym := { stInfo := 4, stShndx := SHN_ABS }, included := true },
   { name := "f", type := STT_FUNC, bind := STB_GLOBAL, sec := some 0, sym := { stInfo := 18, stSize := 4, stShndx := 1 },
     included := true, status := .changed }]

/-- `emitExample` の patched。 -/
def emitPatched : Elf := { sections := [0, 1, 2], symbols := [0, 1, 2] }

/-- `main` の後半を `emitExample` で走らせた結果。 -/
def emitRun : Mem × Elf :=
  match mainEmit exampleTarget exampleTable false emitExample emitPatched with
  | .ok (.written m out) => (m, out)
  | _ => (emitExample, emitPatched)

theorem emit_example_headers_consistent :
    (5 ∈ emitRun.2.sections ∧ isRelaSection (emitRun.1.sec 5) = true) ∧
      ∃ b j k symtab, (emitRun.1.sec 5).base = some b ∧ emitRun.2.sections[j]? = some b ∧
        (emitRun.1.sec 5).sh.shInfo = j + 1 ∧ emitRun.2.sections[k]? = some symtab ∧
        (emitRun.1.sec symtab).name = ".symtab" ∧ (emitRun.1.sec 5).sh.shLink = k + 1 :=
  ⟨⟨by decide, by decide⟩, emit_rela_headers_consistent (by decide) (by decide) (by decide) (by decide)
    (rfl : mainEmit exampleTarget exampleTable false emitExample emitPatched = .ok (.written emitRun.1 emitRun.2))
    5 (by decide) (by decide)⟩

example : emitRun.2.sections = [0, 1, 2, 3, 4, 5] ∧
    ((emitRun.1.sec 1).sh.shInfo, (emitRun.1.sec 1).sh.shLink, (emitRun.1.sec 5).sh.shInfo,
      (emitRun.1.sec 5).sh.shLink) = (1, 3, 5, 3) := by decide

/-! ## 出力のシンボルの表 -/

/-- patched のセクションとシンボルのリストに重複がなく、番号の範囲にあれば、`main` の後半が作る出力のセクションと
シンボルのリストにも重複がなく、位置 `j` のセクションの番号は `j + 1`、位置 `j` のシンボルの番号は `j` である。
`.xsplice.strings` のシンボルは新しい番号なので、移したシンボルと重ならない。 -/
theorem mainEmit_indexed {tgt : Target} {table : LookupTable} {resolve : Bool} {patched out : Elf}
    (hnd : patched.sections.Nodup) (hbound : ∀ s ∈ patched.sections, s < m.nsec)
    (hndY : patched.symbols.Nodup) (hboundY : ∀ y ∈ patched.symbols, y < m.nsym)
    (hl : RelaLinks m patched.sections) (hi : BaseIncluded m patched.sections)
    (h : mainEmit tgt table resolve m patched = .ok (.written m' out)) :
    out.sections.Nodup ∧ out.symbols.Nodup ∧ (∀ j s, out.sections[j]? = some s → (m'.sec s).index = j + 1) ∧
      ∀ j y, out.symbols[j]? = some y → (m'.sym y).index = j := by
  obtain ⟨m1, hint, m4, out4, m5, hspec, -, -, hpatch, -, rfl, hlinks⟩ := mainEmit_ok h
  obtain ⟨hs1, hi1⟩ := processSpecialSections_links hl hi hspec
  obtain ⟨hs2, -⟩ := migrate_relaClosed (hl.of_shape hs1) hi1
  generalize hmig : xspliceMigrateIncludedElements m1 patched = mig at hpatch hs2
  have hsecs2 : mig.2.1.sections = patched.sections.filter (fun p => (m1.sec p).included) := by rw [← hmig]; rfl
  have hsyms2 : mig.2.1.symbols ⊆ patched.symbols ∧ mig.2.1.symbols.Nodup := by
    rw [← hmig]; exact ⟨(List.filter_sublist _).subset, hndY.filter _⟩
  have hb2 : ∀ s ∈ mig.2.1.sections, s < mig.1.nsec := fun s hs => by
    rw [hs2.nsec, hs1.nsec]; exact hbound s (List.mem_filter.mp (hsecs2 ▸ hs)).1
  obtain ⟨-, hnd4⟩ := stringsPatches_sections (hsecs2 ▸ hnd.filter _) hb2 hpatch
  obtain ⟨-, hndY4, -⟩ := stringsPatches_symbols hsyms2.2
    (fun y hy => by rw [hs2.nsym, hs1.nsym]; exact hboundY y (hsyms2.1 hy)) hpatch
  -- 並べ替え、番号を振り、ヘッダを書く
  generalize xspliceRenameLocalSymbols m5 out4 hint = m6 at hlinks ⊢
  have hperm := reorderSymbols_perm m6 out4
  have hsecs : (xspliceReorderSymbols m6 out4).sections = out4.sections := rfl
  generalize xspliceReorderSymbols m6 out4 = out at hperm hsecs hlinks ⊢
  have hndS : out.sections.Nodup := hsecs ▸ hnd4
  have hndY : out.symbols.Nodup := hperm.nodup_iff.mpr hndY4
  obtain ⟨-, -, -, hi9, -⟩ := setRelaSectionLinks_ok hlinks
  refine ⟨hndS, hndY, fun j s hj => by rw [hi9]; exact reindexElements_secIndex hndS j s hj, fun j y hj => ?_⟩
  obtain ⟨hlt, rfl⟩ := List.getElem?_eq_some_iff.mp hj
  rw [setRelaSectionLinks_sym hlinks]; exact (reindexElements_symIndexed hndY j hlt).1

/-- patched のシンボルのリストに重複がなく番号の範囲にあれば、`main` の後半が作る出力には `STT_FILE` のシンボル
`f` があり、名前のある局所的な関数とオブジェクトのシンボルの名前は、どれも `f` の名前に `#` ともとの名前を
続けたものである。 -/
theorem mainEmit_localNames {tgt : Target} {table : LookupTable} {resolve : Bool} {patched out : Elf}
    (hndY : patched.symbols.Nodup) (hboundY : ∀ y ∈ patched.symbols, y < m.nsym)
    (hl : RelaLinks m patched.sections) (hi : BaseIncluded m patched.sections)
    (h : mainEmit tgt table resolve m patched = .ok (.written m' out)) :
    ∃ f ∈ out.symbols, (m'.sym f).type = STT_FILE ∧ ∀ y ∈ out.symbols, (m'.sym y).bind = STB_LOCAL →
      ((m'.sym y).type = STT_FUNC ∨ (m'.sym y).type = STT_OBJECT) → (m'.sym y).name ≠ "" →
      ∃ orig, (m'.sym y).name = mangleLocalSymbol (m'.sym f).name orig := by
  obtain ⟨m1, hint, m4, out4, m5, hspec, -, ⟨f, hf, rfl⟩, hpatch, hbuild, rfl, hlinks⟩ := mainEmit_ok h
  obtain ⟨hs1, hi1⟩ := processSpecialSections_links hl hi hspec
  obtain ⟨hs2, -⟩ := migrate_relaClosed (hl.of_shape hs1) hi1
  generalize hmig : xspliceMigrateIncludedElements m1 patched = mig at hpatch hs2 hf hlinks ⊢
  have hsyms2 : mig.2.1.symbols ⊆ patched.symbols ∧ mig.2.1.symbols.Nodup := by
    rw [← hmig]; exact ⟨(List.filter_sublist _).subset, hndY.filter _⟩
  obtain ⟨hsyms4, hndY4, hold4⟩ := stringsPatches_symbols hsyms2.2
    (fun y hy => by rw [hs2.nsym, hs1.nsym]; exact hboundY y (hsyms2.1 hy)) hpatch
  have hf2 : f ∈ mig.2.1.symbols := List.mem_of_find?_eq_some hf
  have hf4 : f ∈ out4.symbols := hsyms4 ▸ List.mem_append_left _ hf2
  -- 名前を変える段の後：`out4` のシンボルは `renamedSymbol` を通したもの
  obtain ⟨sp, -, hm5⟩ := buildStringsSectionData_ok hbuild
  have hren : ∀ y ∈ out4.symbols,
      (xspliceRenameLocalSymbols m5 out4 (mig.1.sym f).name).sym y = renamedSymbol (mig.1.sym f).name (m4.sym y) :=
    fun y hy => by rw [renameLocalSymbols_sym hndY4, if_pos hy, hm5]; rfl
  generalize xspliceRenameLocalSymbols m5 out4 (mig.1.sym f).name = m6 at hren hlinks ⊢
  have hperm := reorderSymbols_perm m6 out4
  generalize xspliceReorderSymbols m6 out4 = out at hperm hlinks ⊢
  -- 番号を振る段とヘッダを書く段は、名前、型、結合を変えない
  have hfin : ∀ y, ∃ idx e, m'.sym y = { m6.sym y with index := idx, sym := e } := fun y => by
    rw [setRelaSectionLinks_sym hlinks]; exact reindexElements_sym m6 out y
  -- `STT_FILE` のシンボルは改名されない
  have hfile : m'.sym f = { mig.1.sym f with index := (m'.sym f).index, sym := (m'.sym f).sym } := by
    obtain ⟨_, _, hfe⟩ := hfin f
    have htype : (mig.1.sym f).type = STT_FILE := by simpa using List.find?_some hf
    rw [hfe, hren f hf4, hold4 f hf2, renamedSymbol, if_pos (.inr (.inl ⟨by rw [htype]; decide, by rw [htype]; decide⟩))]
  refine ⟨f, hperm.mem_iff.mpr hf4, by rw [hfile]; simpa using List.find?_some hf, fun y hy hb ht hn => ?_⟩
  obtain ⟨_, _, hye⟩ := hfin y
  rw [hye, hren y (hperm.mem_iff.mp hy)] at hb ht hn ⊢
  rw [hfile]
  dsimp only at hb ht hn ⊢
  unfold renamedSymbol at hb ht hn ⊢
  split_ifs at hb ht hn ⊢ with hc
  · exact absurd hc (by rintro (h | ⟨h1, h2⟩ | h) <;> [exact hn h; exact ht.elim h1 h2; exact h hb])
  · exact ⟨_, rfl⟩

end XspliceDiff

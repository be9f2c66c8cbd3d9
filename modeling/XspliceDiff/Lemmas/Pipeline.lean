import XspliceDiff.Lemmas.Ignore
import XspliceDiff.Lemmas.Funcs

/-!
# 含める段と `main` 全体（§4.4）

`xsplice_include_symbol` は、シンボルのセクションを含めてから、そのリロケーションのセクションを含めるので、
含めたリロケーションのセクションの `base` はいつも含めてある。`xsplice_include_debug_sections` と
`xsplice_include_hook_elements` はセクションのリストを順にたどり、リロケーションのセクションをその `base` より
先に含めることがある。そのとき `base` はまだたどっていないセクションで、同じループの中で含められる。ループの
不変条件 `Pending` はこの遅れを表す。これらから、`main` の前半は patched の不変条件を保ち、`main` 全体が出力を
書くなら、出力のどのリロケーションのセクションのヘッダも、出力の中の `base` と `.symtab` を指す。
-/

namespace XspliceDiff

variable {m m' : Mem} {kelf : Elf}

/-! ## 含める段：`base` を先に含める -/

/-- `m'` は `m` の印を増やしただけで、`secs` の中で新しく含めたセクションの `base` は含めてある。 -/
structure SafeGrowth (secs : List SecRef) (m m' : Mem) : Prop where
  grows : m.Grows m'
  nsec : m'.nsec = m.nsec
  nsym : m'.nsym = m.nsym
  bases : ∀ r ∈ secs, (m'.sec r).included = true →
    (m.sec r).included = true ∨ ∀ b ∈ (m'.sec r).base, (m'.sec b).included = true

namespace SafeGrowth

variable {secs : List SecRef} {m m' m'' : Mem}

theorem refl (m : Mem) : SafeGrowth secs m m := ⟨.refl m, rfl, rfl, fun _ _ h => .inl h⟩

theorem trans (h1 : SafeGrowth secs m m') (h2 : SafeGrowth secs m' m'') : SafeGrowth secs m m'' where
  grows := h1.grows.trans h2.grows
  nsec := h2.nsec.trans h1.nsec
  nsym := h2.nsym.trans h1.nsym
  bases r hr hi := (h2.bases r hr hi).elim
    (fun hi' => (h1.bases r hr hi').imp_right fun hb b hb' =>
      h2.grows.secMono b (hb b ((Keeps.of_grows h2.grows h2.nsec h2.nsym).shape.base r ▸ hb'))) .inr

theorem of_sec_eq (hg : m.Grows m') (hn : m'.nsec = m.nsec) (hn' : m'.nsym = m.nsym) (hs : m'.sec = m.sec) :
    SafeGrowth secs m m' :=
  ⟨hg, hn, hn', fun _ _ h => .inl (hs ▸ h)⟩

theorem includeSym (m : Mem) (y : SymRef) : SafeGrowth secs m (m.includeSym y) :=
  of_sec_eq (.includeSym m y) rfl rfl rfl

theorem includeSec (q : SecRef) (hq : ∀ b ∈ (m.sec q).base, (m.sec b).included = true ∨ b = q) :
    SafeGrowth secs m (m.includeSec q) where
  grows := .includeSec m q
  nsec := rfl
  nsym := rfl
  bases r _ hi := by
    by_cases hrq : r = q
    · subst hrq
      refine .inr fun b hb => ?_
      simp only [Mem.includeSec, Mem.modSec_sec_self] at hb
      rcases hq b hb with h | rfl
      · exact (Mem.Grows.includeSec m r).secMono b h
      · simp [Mem.includeSec]
    · simp only [Mem.includeSec, Mem.modSec_sec_of_ne _ _ hrq] at hi; exact .inl hi

theorem keeps (h : SafeGrowth secs m m') : Keeps m m' := .of_grows h.grows h.nsec h.nsym

theorem baseIncluded (h : SafeGrowth secs m m') (hi : BaseIncluded m secs) : BaseIncluded m' secs := fun r hr hri b hb =>
  (h.bases r hr hri).elim (fun hri' => h.grows.secMono b (hi r hr hri' b (h.keeps.shape.base r ▸ hb))) (· b hb)

end SafeGrowth

theorem includeSectionOf_counts (m : Mem) (s : SecRef) (p : SymRef) :
    (includeSectionOf m s p).nsec = m.nsec ∧ (includeSectionOf m s p).nsym = m.nsym := by
  dsimp only [includeSectionOf]
  split
  · split_ifs <;> exact ⟨rfl, rfl⟩
  · exact ⟨rfl, rfl⟩

theorem SafeGrowth.includeSectionOf {secs : List SecRef} {s : SecRef} (p : SymRef) (hs : (m.sec s).base = none) :
    SafeGrowth secs m (includeSectionOf m s p) :=
  (includeSec s fun b hb => by rw [hs] at hb; cases hb).trans
    (of_sec_eq (includeSectionOf_grows m s p) (includeSectionOf_counts m s p).1 (includeSectionOf_counts m s p).2
      (includeSectionOf_sec m s p))

/-- `xsplice_include_symbol` は、シンボルのセクション（`base` を持たない）と、`base` を含めた後のリロケーションの
セクションだけを含める。 -/
theorem includeSymbol_safe : ∀ {fuel : Nat} {m m' : Mem} {p : SymRef}, RelaLinks m kelf.sections →
    SymbolsClosed m kelf → p ∈ kelf.symbols → xspliceIncludeSymbol fuel m p = .ok m' → SafeGrowth kelf.sections m m'
  | 0, _, _, _, _, _, _, h => nomatch h
  | fuel + 1, m, m', p, hl, hc, hp, h => by
    by_cases he : ∃ s, Expands m p s
    · obtain ⟨s, he⟩ := he
      have hsK := hc.symSec p hp s he.1
      have g1 : SafeGrowth kelf.sections m (includeSectionOf (m.includeSym p) s p) :=
        (SafeGrowth.includeSym m p).trans (.includeSectionOf p (hl.base_eq_none hsK.1 hsK.2))
      rw [includeSymbol_expand he] at h
      split at h
      · cases h; exact g1
      next r hr =>
      obtain ⟨hrK, hrb⟩ := hl.relaOf s hsK.1 r hr
      have g2 := g1.trans (SafeGrowth.includeSec r fun b hb => .inl ?_)
      · refine @foldlM_mem_invariant _ _ _ (fun m4 => SafeGrowth kelf.sections m m4) _
          (fun m4 rela hrela m5 g h => g.trans (includeSymbol_safe (hl.of_shape g.keeps.shape) (hc.of_keeps g.keeps)
            (hc.relas r hrK rela hrela) h)) _ _ g2 h
      rw [g1.keeps.shape.base, hrb] at hb
      obtain rfl := Option.some.inj hb
      rw [includeSectionOf_sec]; simp [Mem.includeSec]
    · push_neg at he
      rw [includeSymbol_stop he] at h
      cases h
      exact .includeSym m p

theorem hasPrefix_rela_of_hasPrefix {s pre : String} (h : hasPrefix s pre = true) (hlen : 5 ≤ pre.length)
    (hpre : hasPrefix pre ".rela" = false) : hasPrefix s ".rela" = false := by
  cases hs : hasPrefix s ".rela"
  · rfl
  unfold hasPrefix at h hs hpre
  rw [List.isPrefixOf_iff_prefix] at h hs
  rw [List.isPrefixOf_iff_prefix.mpr (List.prefix_of_prefix_length_le hs h (by simpa using hlen))] at hpre
  cases hpre

theorem isStandardSection_not_rela {name : String} (h : isStandardSection name = true) : hasPrefix name ".rela" = false := by
  simp only [isStandardSection, Bool.or_eq_true, beq_iff_eq] at h
  rcases h with ((rfl | rfl) | rfl) | h
  · decide
  · decide
  · decide
  · exact hasPrefix_rela_of_hasPrefix h (by decide) (by decide)

theorem includeStandardElements_safe (hl : RelaLinks m kelf.sections) (h : xspliceIncludeStandardElements m kelf = .ok m') :
    SafeGrowth kelf.sections m m' := by
  dsimp only [xspliceIncludeStandardElements] at h
  split at h
  · cases h
    refine (@foldl_invariant _ _ _ (SafeGrowth kelf.sections m) kelf.sections (fun a p hp g => g.trans ?_) m
      (.refl m)).trans (.includeSym _ _)
    dsimp only
    split_ifs with hstd
    · exact .refl a
    have hbase := (hl.of_shape g.keeps.shape).base_eq_none hp
      ((hl.of_shape g.keeps.shape).not_rela hp (isStandardSection_not_rela (by simpa using hstd)))
    refine (SafeGrowth.includeSec p fun b hb => by rw [hbase] at hb; cases hb).trans ?_
    split
    exacts [.includeSym _ _, .refl _]
  · cases h

theorem includeChangedFunctions_safe {n : Nat} (hl : RelaLinks m kelf.sections) (hc : SymbolsClosed m kelf)
    (h : xspliceIncludeChangedFunctions m kelf = .ok (m', n)) : SafeGrowth kelf.sections m m' := by
  refine @foldlM_mem_invariant _ _ _ (fun a => SafeGrowth kelf.sections m a.1) kelf.symbols
    (fun ⟨m1, k⟩ p hp a g h => ?_) (m, 0) (m', n) (.refl m) h
  have g : SafeGrowth kelf.sections m m1 := g
  have hfile : ∀ (m2 : Mem) (k2 : Nat), SafeGrowth kelf.sections m m2 →
      (if (m2.sym p).type = STT_FILE then pure (m2.includeSym p, k2) else pure (m2, k2) : Except Abort (Mem × Nat)) =
        .ok a → SafeGrowth kelf.sections m a.1 := fun m2 k2 g2 h => by
    split_ifs at h <;> cases h
    exacts [g2.trans (.includeSym _ _), g2]
  simp only [includeChangedFunction] at h
  split_ifs at h
  · obtain ⟨m2, h2, h⟩ := bind_eq_ok.mp h
    rw [pure_bind] at h
    exact hfile _ _ (g.trans (includeSymbol_safe (hl.of_shape g.keeps.shape) (hc.of_keeps g.keeps) hp h2)) h
  · rw [pure_bind] at h
    exact hfile _ _ g h

theorem includeNewGlobals_safe {n : Nat} (hl : RelaLinks m kelf.sections) (hc : SymbolsClosed m kelf)
    (h : xspliceIncludeNewGlobals m kelf = .ok (m', n)) : SafeGrowth kelf.sections m m' := by
  refine @foldlM_mem_invariant _ _ _ (fun a => SafeGrowth kelf.sections m a.1) kelf.symbols
    (fun ⟨m1, k⟩ p hp a g h => ?_) (m, 0) (m', n) (.refl m) h
  have g : SafeGrowth kelf.sections m m1 := g
  simp only [includeNewGlobal] at h
  split_ifs at h
  · obtain ⟨m2, h2, h⟩ := bind_eq_ok.mp h
    cases h
    exact g.trans (includeSymbol_safe (hl.of_shape g.keeps.shape) (hc.of_keeps g.keeps) hp h2)
  · cases h; exact g

/-! ## デバッグのセクションとフック：ループの途中で `base` を後から含める -/

/-- ループの途中の不変条件：含めたセクションの `base` は、含めてあるか、まだ処理していない（`rest` にある）
`Q` のセクションである。処理を終えた `Q` のセクションは含めてある。 -/
structure Pending (m : Mem) (secs : List SecRef) (Q : SecRef → Prop) (rest : List SecRef) : Prop where
  base : ∀ r ∈ secs, (m.sec r).included = true → ∀ b ∈ (m.sec r).base, (m.sec b).included = true ∨ (b ∈ rest ∧ Q b)
  done : ∀ b ∈ secs, Q b → b ∉ rest → (m.sec b).included = true

namespace Pending

variable {secs rest : List SecRef} {Q : SecRef → Prop} {p : SecRef}

theorem start (hi : BaseIncluded m secs) : Pending m secs Q secs :=
  ⟨fun r hr hri b hb => .inl (hi r hr hri b hb), fun _ hb _ hn => absurd hb hn⟩

theorem finish (h : Pending m secs Q []) : BaseIncluded m secs := fun r hr hri b hb =>
  (h.base r hr hri b hb).resolve_right fun h => List.not_mem_nil b h.1

theorem skip (hQ : ¬Q p) (h : Pending m secs Q (p :: rest)) : Pending m secs Q rest where
  base r hr hri b hb := (h.base r hr hri b hb).imp_right fun ⟨hb, hq⟩ =>
    ⟨(List.mem_cons.mp hb).resolve_left (by rintro rfl; exact hQ hq), hq⟩
  done b hb hq hn := h.done b hb hq (by rintro (_ | ⟨_, h⟩); exacts [hQ hq, hn h])

theorem of_sec (hinc : ∀ s, (m'.sec s).included = (m.sec s).included) (hbase : ∀ s, (m'.sec s).base = (m.sec s).base)
    (h : Pending m secs Q rest) : Pending m' secs Q rest where
  base r hr hri b hb := by rw [hinc] at hri ⊢; exact h.base r hr hri b (hbase r ▸ hb)
  done b hb hq hn := by rw [hinc]; exact h.done b hb hq hn

theorem safe (g : SafeGrowth secs m m') (h : Pending m secs Q rest) : Pending m' secs Q rest where
  base r hr hri b hb := (g.bases r hr hri).elim
    (fun hri' => (h.base r hr hri' b (g.keeps.shape.base r ▸ hb)).imp_left (g.grows.secMono b)) fun hb' => .inl (hb' b hb)
  done b hb hq hn := g.grows.secMono b (h.done b hb hq hn)

theorem includeQ (hQ : Q p) (hb : ∀ b ∈ (m.sec p).base, b ∈ secs ∧ Q b) (h : Pending m secs Q (p :: rest)) :
    Pending (m.includeSec p) secs Q rest where
  base r hr hri b hb' := by
    by_cases hbp : b = p
    · subst hbp; exact .inl (by simp [Mem.includeSec])
    rw [Mem.includeSec, Mem.modSec_sec_of_ne _ _ hbp]
    by_cases hrp : r = p
    · subst hrp
      simp only [Mem.includeSec, Mem.modSec_sec_self] at hb'
      obtain ⟨hbs, hq⟩ := hb b hb'
      by_cases hbr : b ∈ rest
      · exact .inr ⟨hbr, hq⟩
      · exact .inl (h.done b hbs hq (by rintro (_ | ⟨_, h⟩); exacts [hbp rfl, hbr h]))
    · simp only [Mem.includeSec, Mem.modSec_sec_of_ne _ _ hrp] at hri hb'
      exact (h.base r hr hri b hb').imp_right fun ⟨hm, hq⟩ => ⟨(List.mem_cons.mp hm).resolve_left hbp, hq⟩
  done b hb hq hn := by
    by_cases hbp : b = p
    · subst hbp; simp [Mem.includeSec]
    · rw [Mem.includeSec, Mem.modSec_sec_of_ne _ _ hbp]
      exact h.done b hb hq (by rintro (_ | ⟨_, h⟩); exacts [hbp rfl, hn h])

end Pending

theorem isDebugSection_of_shape (hs : SecShape m m') (s : SecRef) :
    isDebugSection m' (m'.sec s) = isDebugSection m (m.sec s) := by
  simp only [isDebugSection, Mem.base, hs.isRela, hs.base]
  split
  · split <;> simp only [hs.name]
  · simp only [hs.name]

theorem RelaLinks.isDebugSection_base {secs : List SecRef} {r b : SecRef} (hl : RelaLinks m secs) (hr : r ∈ secs)
    (hb : (m.sec r).base = some b) : isDebugSection m (m.sec r) = isDebugSection m (m.sec b) := by
  have hrr : isRelaSection (m.sec r) = true := (hl.hasBase r hr).mpr (by simp [hb])
  have hbr := (hl.baseOf r hr b hb).2.1
  simp only [isDebugSection, hrr, hbr, if_true, Mem.base, hb]
  rfl

theorem includeDebugSections_prepInv (hi : PrepInv m kelf) (h : xspliceIncludeDebugSections m kelf = .ok m') :
    PrepInv m' kelf ∧ m'.nsec = m.nsec ∧ m'.nsym = m.nsym := by
  dsimp only [xspliceIncludeDebugSections] at h
  obtain ⟨m1, h1, h2⟩ := bind_eq_ok.mp h
  have hloop : Keeps m m1 ∧ Pending m1 kelf.sections (fun b => isDebugSection m (m.sec b) = true) [] := by
    refine @foldlM_rest_invariant _ _ _
      (fun m1 rest => Keeps m m1 ∧ Pending m1 kelf.sections (fun b => isDebugSection m (m.sec b) = true) rest)
      kelf.sections (fun m1 p rest m2 hp hinv h => ?_) _ _ _ (List.suffix_refl _) ⟨.refl m, .start hi.baseIncluded⟩ h1
    obtain ⟨hk, hpend⟩ := hinv
    have hQ := isDebugSection_of_shape hk.shape p
    by_cases hd : (!isDebugSection m1 (m1.sec p)) = true
    · rw [if_pos hd] at h; cases h
      exact ⟨hk, hpend.skip (by simpa [hQ] using hd)⟩
    rw [if_neg hd, pure_bind] at h
    have hQp : isDebugSection m (m.sec p) = true := by simpa [hQ] using hd
    have hl1 := hi.links.of_shape hk.shape
    have hinc : Keeps m (m1.includeSec p) ∧
        Pending (m1.includeSec p) kelf.sections (fun b => isDebugSection m (m.sec b) = true) rest :=
      ⟨hk.trans (.modSec p (by intro; rfl)), hpend.includeQ hQp fun b hb => ⟨(hl1.baseOf p hp b hb).1, by
        rw [← isDebugSection_of_shape hk.shape b, ← hl1.isDebugSection_base hp hb, hQ]; exact hQp⟩⟩
    by_cases hr : isRelaSection (m1.sec p) = true
    · rw [if_pos hr] at h; cases h; exact hinc
    rw [if_neg hr, pure_bind] at h
    obtain ⟨y, -, h⟩ := bind_eq_ok.mp h
    cases h
    exact ⟨hinc.1.trans (.of_grows (.includeSym _ y) rfl rfl), hinc.2.of_sec (by intro; rfl) (by intro; rfl)⟩
  obtain ⟨hk1, hp1⟩ := hloop
  have hi1 : PrepInv m1 kelf := hi.of_keeps hk1 hp1.finish
  refine (@foldlM_mem_invariant _ _ _ (fun m2 => PrepInv m2 kelf ∧ RelasOnly m1 m2) _
    (fun m2 p hp m3 ⟨hi2, ho2⟩ h => ?_) _ _ ⟨hi1, .refl m1⟩ h2).imp_right fun ho =>
      ⟨ho.nsec.trans hk1.nsec, ho.nsym.trans hk1.nsym⟩
  split_ifs at h
  · cases h; exact ⟨hi2, ho2⟩
  rw [pure_bind] at h
  obtain ⟨relas, hrelas, h⟩ := bind_eq_ok.mp h
  cases h
  have ho3 := RelasOnly.setRelas m2 p relas
  refine ⟨hi2.of_relasOnly ho3 fun s hs rela hr => ?_, ho2.trans ho3⟩
  by_cases hsp : s = p
  · subst hsp
    rw [Mem.modSec_sec_self] at hr
    exact hi2.closed.relas s hs rela (filterM_mem hrelas rela hr)
  · rw [Mem.modSec_sec_of_ne _ _ hsp] at hr; exact hi2.closed.relas s hs rela hr

theorem rela_append_inj {x y : String} (h : ".rela" ++ x = ".rela" ++ y) : x = y := by
  have := congrArg String.toList h; simp at this; exact String.ext this

theorem hookSectionNames_base {x : String} (h : hookSectionNames.contains (".rela" ++ x) = true) :
    hookSectionNames.contains x = true := by
  simp only [hookSectionNames, List.contains, List.elem_eq_mem, decide_eq_true_eq, List.mem_cons, List.mem_singleton,
    List.not_mem_nil, or_false] at h ⊢
  rcases h with h | h | h | h
  · have := congrArg String.toList h; simp at this
  · have := congrArg String.toList h; simp at this
  · exact .inl (rela_append_inj (h.trans rfl))
  · exact .inr (.inl (rela_append_inj (h.trans rfl)))

theorem SymbolsClosed.unbundle (hc : SymbolsClosed m kelf) (s : SecRef) :
    SymbolsClosed (m.modSec s fun x => { x with sym := none }) kelf := by
  have key : ∀ q, ((m.modSec s fun x => { x with sym := none }).sec q).sh = (m.sec q).sh ∧
      ((m.modSec s fun x => { x with sym := none }).sec q).relas = (m.sec q).relas ∧
      ((m.modSec s fun x => { x with sym := none }).sec q).secsym = (m.sec q).secsym ∧
      ∀ y ∈ ((m.modSec s fun x => { x with sym := none }).sec q).sym, y ∈ (m.sec q).sym := fun q => by
    by_cases hq : q = s <;> simp [Mem.modSec_sec, hq]
  exact ⟨fun y hy q hq => by rw [isRelaSection, (key q).1]; exact hc.symSec y hy q hq,
    fun q hq rela hr => hc.relas q hq rela ((key q).2.1 ▸ hr), fun q hq y hy => hc.bundled q hq y ((key q).2.2.2 y hy),
    fun q hq y hy => hc.secsym q hq y ((key q).2.2.1 ▸ hy)⟩

theorem includeHookSection_step {fuel : Nat} {m1 m2 : Mem} {p : SecRef} {rest : List SecRef} (hi : PrepInv m kelf)
    (hp : p ∈ kelf.sections) (hs1 : SecShape m m1) (hc1 : SymbolsClosed m1 kelf)
    (hp1 : Pending m1 kelf.sections (fun b => hookSectionNames.contains (m.sec b).name = true) (p :: rest))
    (h : includeHookSection fuel m1 p = .ok m2) :
    SecShape m m2 ∧ SymbolsClosed m2 kelf ∧
      Pending m2 kelf.sections (fun b => hookSectionNames.contains (m.sec b).name = true) rest := by
  dsimp only [includeHookSection] at h
  by_cases hn : (!hookSectionNames.contains (m1.sec p).name) = true
  · rw [if_pos hn] at h; cases h
    exact ⟨hs1, hc1, hp1.skip (by simpa [hs1.name] using hn)⟩
  rw [if_neg hn, pure_bind] at h
  have hQp : hookSectionNames.contains (m.sec p).name = true := by simpa [hs1.name] using hn
  have hl1 := hi.links.of_shape hs1
  have hkA : Keeps m1 (m1.includeSec p) := .modSec p (by intro; rfl)
  have hA : SecShape m (m1.includeSec p) ∧ SymbolsClosed (m1.includeSec p) kelf ∧
      Pending (m1.includeSec p) kelf.sections (fun b => hookSectionNames.contains (m.sec b).name = true) rest :=
    ⟨hs1.trans hkA.shape, hc1.of_keeps hkA, hp1.includeQ hQp fun b hb => ⟨(hl1.baseOf p hp b hb).1, by
      have := hi.named p hp b (hs1.base p ▸ hb)
      rw [this] at hQp; exact hookSectionNames_base hQp⟩⟩
  by_cases hr : isRelaSection (m1.sec p) = true
  swap
  · rw [if_neg hr] at h
    obtain ⟨ss, -, h⟩ := bind_eq_ok.mp h
    cases h
    have hk := Keeps.of_grows (Mem.Grows.includeSym (m1.includeSec p) ss) rfl rfl
    exact ⟨hA.1.trans hk.shape, hA.2.1.of_keeps hk, hA.2.2.of_sec (by intro; rfl) (by intro; rfl)⟩
  rw [if_pos hr] at h
  split at h
  swap
  · cases h
  next rela hrela =>
  obtain ⟨mB, hB, h⟩ := bind_eq_ok.mp h
  have hsym : rela.sym ∈ kelf.symbols := hc1.relas p hp rela (List.mem_of_mem_head? hrela)
  have g := includeSymbol_safe (hi.links.of_shape hA.1) hA.2.1 hsym hB
  have hkC : Keeps mB (mB.modSym rela.sym fun z => { z with included := false }) :=
    (Frame.modSym rela.sym (by intro; rfl)).keeps
  have hcC := (hA.2.1.of_keeps g.keeps).of_keeps hkC
  obtain ⟨s, hs, h⟩ := bind_eq_ok.mp h
  obtain ⟨ss, hss, h⟩ := bind_eq_ok.mp h
  cases h
  have hsK := (hcC.symSec rela.sym hsym s (deref_eq_ok.mp hs)).1
  have hssK : ss ∈ kelf.symbols := hcC.secsym s hsK ss (by simpa using deref_eq_ok.mp hss)
  have hsD : SecShape (mB.modSym rela.sym fun z => { z with included := false })
      ((mB.modSym rela.sym fun z => { z with included := false }).modSec s fun x => { x with sym := none }) :=
    .modSec s (by intro; exact ⟨rfl, rfl, rfl, rfl⟩)
  have hoE := RelasOnly.setRelas ((mB.modSym rela.sym fun z => { z with included := false }).modSec s
    fun x => { x with sym := none }) p ({ rela with sym := ss } :: (m1.sec p).relas.tail)
  refine ⟨hA.1.trans (g.keeps.shape.trans (hkC.shape.trans (hsD.trans hoE.shape))),
    (hcC.unbundle s).of_relasOnly hoE fun q hq r hr => ?_,
    (((hA.2.2.safe g).of_sec (by intro; rfl) (by intro; rfl)).of_sec (fun q => ?_) (fun q => ?_)).of_sec
      (fun q => hoE.included q) (fun q => hoE.shape.base q)⟩
  · by_cases hqp : q = p
    · subst hqp
      rw [Mem.modSec_sec_self] at hr
      rcases List.mem_cons.mp hr with rfl | hr
      · exact hssK
      · exact hc1.relas q hp r (List.mem_of_mem_tail hr)
    · rw [Mem.modSec_sec_of_ne _ _ hqp] at hr; exact (hcC.unbundle s).relas q hq r hr
  · by_cases hqs : q = s <;> simp [Mem.modSec_sec, hqs]
  · by_cases hqs : q = s <;> simp [Mem.modSec_sec, hqs]

/-- `xsplice_include_hook_elements` は、フックのリロケーションのセクションを含めても、その `base`（フックの
セクション）を同じループの中で含める。 -/
theorem includeHookElements_prepInv (hi : PrepInv m kelf) (h : xspliceIncludeHookElements m kelf = .ok m') :
    PrepInv m' kelf ∧ m'.nsec = m.nsec ∧ m'.nsym = m.nsym := by
  dsimp only [xspliceIncludeHookElements] at h
  obtain ⟨m1, h1, h⟩ := bind_eq_ok.mp h
  cases h
  obtain ⟨hs1, hc1, hp1⟩ := @foldlM_rest_invariant _ _ _
    (fun m1 rest => SecShape m m1 ∧ SymbolsClosed m1 kelf ∧
      Pending m1 kelf.sections (fun b => hookSectionNames.contains (m.sec b).name = true) rest) kelf.sections
    (fun _ _ _ _ hp ⟨hs, hc, hpend⟩ h => includeHookSection_step hi hp hs hc hpend h) _ _ _ (List.suffix_refl _)
    ⟨.refl m, hi.closed, .start hi.baseIncluded⟩ h1
  have hf : Frame m1 (kelf.symbols.foldl (fun m y =>
      if (m.sym y).name = "xsplice_load_data" ∨ (m.sym y).name = "xsplice_unload_data" then
        m.modSym y fun z => { z with included := false }
      else m) m1) := Frame.foldl (fun m y => by
    split_ifs
    exacts [.modSym _ (by intro; rfl), .refl _]) _ _
  exact ⟨PrepInv.of_frame hf ⟨hi.links.of_shape hs1, hi.named.of_shape hs1, hc1, hp1.finish⟩, hf.nsec.trans hs1.nsec,
    hf.nsym.trans hs1.nsym⟩

/-! ## `main` の前半 -/

theorem PrepInv.of_safe (g : SafeGrowth kelf.sections m m') (hi : PrepInv m kelf) : PrepInv m' kelf :=
  hi.of_keeps g.keeps (g.baseIncluded hi.baseIncluded)

/-- `main` の前半は、patched の不変条件（ローダのリンクと名前、閉じたシンボル、含めたセクションの `base` が
含めてあること）と、セクションとシンボルの数を保つ。base と patched のセクションは別のもので、base も同じ形とする。 -/
theorem mainPrepare_prepInv {decode : InsnDecoder} {base patched : Elf} {n g : Nat}
    (hdisj : ∀ s ∈ base.sections, s ∉ patched.sections) (hB : PrepInv m base) (hP : PrepInv m patched)
    (h : mainPrepare decode m base patched = .ok (m', n, g)) :
    PrepInv m' patched ∧ m'.nsec = m.nsec ∧ m'.nsym = m.nsym ∧ IgnoredSame m' patched := by
  rw [mainPrepare] at h
  obtain ⟨⟨⟩, -, h⟩ := bind_eq_ok.mp h
  obtain ⟨⟨⟩, -, h⟩ := bind_eq_ok.mp h
  obtain ⟨⟨⟩, -, h⟩ := bind_eq_ok.mp h
  obtain ⟨m1, h1, h⟩ := bind_eq_ok.mp h
  obtain ⟨m2, h2, h⟩ := bind_eq_ok.mp h
  obtain ⟨m3, h3, h⟩ := bind_eq_ok.mp h
  obtain ⟨m4, h4, h⟩ := bind_eq_ok.mp h
  obtain ⟨m5, h5, h⟩ := bind_eq_ok.mp h
  obtain ⟨m6, h6, h⟩ := bind_eq_ok.mp h
  obtain ⟨m7, h7, h⟩ := bind_eq_ok.mp h
  obtain ⟨m8, h8, h⟩ := bind_eq_ok.mp h
  obtain ⟨m9, h9, h⟩ := bind_eq_ok.mp h
  obtain ⟨⟨m10, nc⟩, h10, h⟩ := bind_eq_ok.mp h
  obtain ⟨m11, h11, h⟩ := bind_eq_ok.mp h
  obtain ⟨m12, h12, h⟩ := bind_eq_ok.mp h
  obtain ⟨⟨m13, ng⟩, h13, h⟩ := bind_eq_ok.mp h
  cases h
  -- 印を付け、リロケーションの参照先を置き換える（base、patched の順）
  have hf1 := markGroupedSections_frame h1
  obtain ⟨ho2, hc2, hout2⟩ := replaceSectionsSyms_relasOnly (hB.of_frame hf1).closed h2
  have hB2 := (hB.of_frame hf1).of_relasOnly ho2 hc2.relas
  have hP2 := (hP.of_frame hf1).of_agree (fun s hs => hout2 s fun hb => hdisj s hb hs) ho2.symSec
  obtain ⟨ho3, hc3, hout3⟩ := replaceSectionsSyms_relasOnly hP2.closed h3
  have hP3 := hP2.of_relasOnly ho3 hc3.relas
  have hB3 := hB2.of_agree (fun s hs => hout3 s (hdisj s hs)) ho3.symSec
  -- 改名し、対応づけて比べる
  obtain ⟨hP4, hn4, hy4⟩ := renameMangledFunctions_prepInv hP3 hB3 hdisj h4
  have hf5 := (correlateElfs_frame base patched).trans (correlateStaticLocalVariables_frame h5)
  obtain ⟨hP6, hn6, hy6⟩ := markIgnoredSections_prepInv (hP4.of_frame hf5) h6
  have hf7 := (compareCorrelatedElements_frame h7).trans (markIgnoredFunctionsSame_frame h8)
  have hf8 := (hf7.trans (markIgnoredSectionsSame_frame m8 patched)).trans (markConstantLabelsSame_frame _ patched)
  have hP8 := hP6.of_frame hf8
  -- 含める
  have g9 := includeStandardElements_safe hP8.links h9
  have hP9 := hP8.of_safe g9
  have g10 := includeChangedFunctions_safe hP9.links hP9.closed h10
  obtain ⟨hP11, hn11, hy11⟩ := includeDebugSections_prepInv (hP9.of_safe g10) h11
  obtain ⟨hP12, hn12, hy12⟩ := includeHookElements_prepInv hP11 h12
  have g13 := includeNewGlobals_safe hP12.links hP12.closed h13
  -- 無視した関数は、含める段の後も `SAME`
  have hK : Kept m8 m10 := (((markIgnoredSectionsSame_kept m8 patched).trans (markConstantLabelsSame_kept _ _)).trans
    (.of_grows g9.grows)).trans (.of_grows g10.grows)
  have hI := (markIgnoredFunctionsSame_ignoredSame h8).frame (hP6.of_frame hf7) <| (IgnoreFrame.of_kept hK).trans <|
    (includeDebugSections_ignoreFrame h11).trans <| (includeHookElements_ignoreFrame h12).trans <|
      .of_kept (.of_grows g13.grows)
  refine ⟨hP12.of_safe g13, ?_, ?_, hI⟩
  · rw [g13.nsec, hn12, hn11, g10.nsec, g9.nsec, hf8.nsec, hn6, hf5.nsec, hn4, ho3.nsec, ho2.nsec, hf1.nsec]
  · rw [g13.nsym, hy12, hy11, g10.nsym, g9.nsym, hf8.nsym, hy6, hf5.nsym, hy4, ho3.nsym, ho2.nsym, hf1.nsym]

/-- base と patched のセクションが別のもので、どちらのモデルもローダの不変条件を満たせば、`main` の前半の後も
patched のモデルは不変条件を満たし（とくに、含めたリロケーションのセクションの `base` は含めてある）、
セクションの数は変わらない。 -/
theorem prepare_keeps_loader_invariants {decode : InsnDecoder} {base patched : Elf} {n g : Nat}
    (hdisj : ∀ s ∈ base.sections, s ∉ patched.sections) (hB : PrepInv m base) (hP : PrepInv m patched)
    (h : mainPrepare decode m base patched = .ok (m', n, g)) : PrepInv m' patched ∧ m'.nsec = m.nsec :=
  (mainPrepare_prepInv hdisj hB hP h).imp_right And.left

/-- `debugExample` で `main` の前半を走らせた結果。 -/
def debugPrepared : Mem × Nat × Nat :=
  match mainPrepare exampleTarget.decode debugExample debugBase debugPatched with
  | .ok r => r
  | .error _ => (debugExample, 0, 0)

set_option maxRecDepth 4000 in
theorem debug_example_prepared_invariants :
    PrepInv debugPrepared.1 debugPatched ∧ debugPrepared.1.nsec = debugExample.nsec :=
  prepare_keeps_loader_invariants (by decide) (by decide) (by decide)
    (rfl : mainPrepare exampleTarget.decode debugExample debugBase debugPatched =
      .ok (debugPrepared.1, debugPrepared.2.1, debugPrepared.2.2))

/-! ## `main` 全体 -/

/-- `main` が出力を書いたなら、前半は成功し、後半がその答えから出力を書いている。 -/
theorem xspliceMain_written {tgt : Target} {table : LookupTable} {resolve : Bool} {base patched out : Elf}
    (h : xspliceMain tgt table resolve m base patched = .ok (.written m' out)) :
    ∃ m1 n g, mainPrepare tgt.decode m base patched = .ok (m1, n, g) ∧
      mainEmit tgt table resolve m1 patched = .ok (.written m' out) := by
  rw [xspliceMain] at h
  obtain ⟨⟨m1, n, g⟩, hprep, h⟩ := bind_eq_ok.mp h
  dsimp only at h
  split_ifs at h
  · cases h
  rw [pure_bind] at h
  exact ⟨m1, n, g, hprep, h⟩

/-- ローダが作った base と patched のモデル（セクションは別のもので、どちらも不変条件を満たし、patched の
セクションは重複がなく番号の範囲にある）から `main` が出力を書けば、出力のどのリロケーションのセクションも、
`base` が出力の位置 `j` にあって `sh_info = j + 1` であり、`.symtab` が出力の位置 `k` にあって `sh_link = k + 1`
である。 -/
theorem main_rela_headers_consistent {tgt : Target} {table : LookupTable} {resolve : Bool} {base patched out : Elf}
    (hnd : patched.sections.Nodup) (hbound : ∀ s ∈ patched.sections, s < m.nsec)
    (hdisj : ∀ s ∈ base.sections, s ∉ patched.sections) (hB : PrepInv m base) (hP : PrepInv m patched)
    (h : xspliceMain tgt table resolve m base patched = .ok (.written m' out)) :
    ∀ r ∈ out.sections, isRelaSection (m'.sec r) = true →
      ∃ b j k symtab, (m'.sec r).base = some b ∧ out.sections[j]? = some b ∧ (m'.sec r).sh.shInfo = j + 1 ∧
        out.sections[k]? = some symtab ∧ (m'.sec symtab).name = ".symtab" ∧ (m'.sec r).sh.shLink = k + 1 := by
  obtain ⟨m1, n, g, hprep, h⟩ := xspliceMain_written h
  obtain ⟨hP1, hn1, -⟩ := mainPrepare_prepInv hdisj hB hP hprep
  obtain ⟨m8, hlinks, hc, hidx⟩ := mainEmit_beforeHeaders hnd (fun s hs => hn1 ▸ hbound s hs) hP1.links hP1.baseIncluded h
  exact setRelaSectionLinks_headers hlinks hc hidx

/-- `debugExample` で `main` を走らせた結果。 -/
def debugRun : Mem × Elf :=
  match xspliceMain exampleTarget exampleTable false debugExample debugBase debugPatched with
  | .ok (.written m out) => (m, out)
  | _ => (debugExample, debugPatched)

set_option maxRecDepth 4000 in
theorem debug_example_headers_consistent :
    (7 ∈ debugRun.2.sections ∧ isRelaSection (debugRun.1.sec 7) = true) ∧
      ∃ b j k symtab, (debugRun.1.sec 7).base = some b ∧ debugRun.2.sections[j]? = some b ∧
        (debugRun.1.sec 7).sh.shInfo = j + 1 ∧ debugRun.2.sections[k]? = some symtab ∧
        (debugRun.1.sec symtab).name = ".symtab" ∧ (debugRun.1.sec 7).sh.shLink = k + 1 :=
  ⟨⟨by decide, by decide⟩, main_rela_headers_consistent (by decide) (by decide) (by decide) (by decide) (by decide)
    (rfl : xspliceMain exampleTarget exampleTable false debugExample debugBase debugPatched =
      .ok (.written debugRun.1 debugRun.2))
    7 (by decide) (by decide)⟩

/-- ローダが作った base と patched のモデル（`main_rela_headers_consistent` と同じ前提に加えて、patched のシンボルは重複がなく番号の範囲に
ある）から `main` が出力を書けば、出力のセクションとシンボルのリストには重複がなく、位置 `j` のセクションの番号は
`j + 1`、位置 `j` のシンボルの番号は `j` である。 -/
theorem main_output_indexed_by_position {tgt : Target} {table : LookupTable} {resolve : Bool} {base patched out : Elf}
    (hnd : patched.sections.Nodup) (hbound : ∀ s ∈ patched.sections, s < m.nsec)
    (hndY : patched.symbols.Nodup) (hboundY : ∀ y ∈ patched.symbols, y < m.nsym)
    (hdisj : ∀ s ∈ base.sections, s ∉ patched.sections) (hB : PrepInv m base) (hP : PrepInv m patched)
    (h : xspliceMain tgt table resolve m base patched = .ok (.written m' out)) :
    out.sections.Nodup ∧ out.symbols.Nodup ∧ (∀ j s, out.sections[j]? = some s → (m'.sec s).index = j + 1) ∧
      ∀ j y, out.symbols[j]? = some y → (m'.sym y).index = j := by
  obtain ⟨m1, n, g, hprep, h⟩ := xspliceMain_written h
  obtain ⟨hP1, hn1, hy1, -⟩ := mainPrepare_prepInv hdisj hB hP hprep
  exact mainEmit_indexed hnd (fun s hs => hn1 ▸ hbound s hs) hndY (fun y hy => hy1 ▸ hboundY y hy) hP1.links
    hP1.baseIncluded h

set_option maxRecDepth 4000 in
/-- 出力の位置 6 の `.xsplice.strings`（セクション 12）の番号は 7、位置 5 のそのセクションのシンボル（シンボル 14）の
番号は 5 である。 -/
theorem debug_example_output_indexed :
    debugRun.2.sections.Nodup ∧ debugRun.2.symbols.Nodup ∧
      (debugRun.2.sections[6]? = some 12 ∧ (debugRun.1.sec 12).index = 7) ∧
      (debugRun.2.symbols[5]? = some 14 ∧ (debugRun.1.sym 14).index = 5) := by
  have h := main_output_indexed_by_position (by decide) (by decide) (by decide) (by decide) (by decide) (by decide)
    (by decide) (rfl : xspliceMain exampleTarget exampleTable false debugExample debugBase debugPatched =
      .ok (.written debugRun.1 debugRun.2))
  exact ⟨h.1, h.2.1, ⟨by decide, h.2.2.1 6 12 (by decide)⟩, ⟨by decide, h.2.2.2 5 14 (by decide)⟩⟩

/-- ローダが作った base と patched のモデル（セクションは別のもので、どちらも不変条件を満たし、patched のシンボル
は重複がなく番号の範囲にある）から `main` が出力を書けば、出力には `STT_FILE` のシンボル `f` があり、出力の
名前のある局所的な関数とオブジェクトのシンボルの名前は、どれも `f` の名前に `#` を続けたもので始まる。 -/
theorem main_local_symbols_qualified {tgt : Target} {table : LookupTable} {resolve : Bool} {base patched out : Elf}
    (hndY : patched.symbols.Nodup) (hboundY : ∀ y ∈ patched.symbols, y < m.nsym)
    (hdisj : ∀ s ∈ base.sections, s ∉ patched.sections) (hB : PrepInv m base) (hP : PrepInv m patched)
    (h : xspliceMain tgt table resolve m base patched = .ok (.written m' out)) :
    ∃ f ∈ out.symbols, (m'.sym f).type = STT_FILE ∧ ∀ y ∈ out.symbols, (m'.sym y).bind = STB_LOCAL →
      ((m'.sym y).type = STT_FUNC ∨ (m'.sym y).type = STT_OBJECT) → (m'.sym y).name ≠ "" →
      ∃ orig, (m'.sym y).name = mangleLocalSymbol (m'.sym f).name orig := by
  obtain ⟨m1, n, g, hprep, h⟩ := xspliceMain_written h
  obtain ⟨hP1, -, hy1, -⟩ := mainPrepare_prepInv hdisj hB hP hprep
  exact mainEmit_localNames hndY (fun y hy => hy1 ▸ hboundY y hy) hP1.links hP1.baseIncluded h

/-- 局所的な関数 `g` だけを持つオブジェクトの二つの写し。一つの写しのセクションは `.text.g`、`.symtab`、シンボルは
NULL、`x.c`、`g`、`.text.g` の順。base はセクションとシンボルが 0 から、patched はセクションが 2 から、シンボルが
4 からで、`g` のコードの先頭が `0x90` から `0xc3` に変わる。 -/
def localExample : Mem :=
  let secs (j : Nat) (code : UInt8) : List Section :=
    [{ name := ".text.g", sh := { shType := SHT_PROGBITS, shFlags := 6, shSize := 4 },
       data := { dBuf := [code, 0, 0, 0], dSize := 4 }, sym := some (j + 2), secsym := some (j + 3), index := 1 },
     { name := ".symtab", sh := { shType := 2, shSize := 24 }, data := { dBuf := List.replicate 24 0, dSize := 24 },
       index := 2 }]
  let syms (k : Nat) : List Symbol :=
    [{ name := "" },
     { name := "x.c", type := STT_FILE, sym := { stInfo := 4, stShndx := SHN_ABS } },
     { name := "g", type := STT_FUNC, bind := STB_LOCAL, sec := some k,
       sym := { stInfo := 2, stSize := 4, stShndx := 1 } },
     { name := ".text.g", type := STT_SECTION, sec := some k, sym := { stInfo := 3, stShndx := 1 } }]
  Mem.ofLists (secs 0 0x90 ++ secs 4 0xc3) (syms 0 ++ syms 2)

/-- `localExample` の base。 -/
def localBase : Elf := { sections := List.range 2, symbols := List.range 4 }

/-- `localExample` の patched。 -/
def localPatched : Elf := { sections := [2, 3], symbols := [4, 5, 6, 7] }

/-- `localExample` で `main` を走らせた結果。 -/
def localRun : Mem × Elf :=
  match xspliceMain exampleTarget exampleTable false localExample localBase localPatched with
  | .ok (.written m out) => (m, out)
  | _ => (localExample, localPatched)

/-- 出力の `g`（シンボル 6）の名前は `x.c#g` である。 -/
theorem local_example_symbol_qualified :
    ∃ f ∈ localRun.2.symbols, (localRun.1.sym f).type = STT_FILE ∧
      (6 ∈ localRun.2.symbols ∧ (localRun.1.sym 6).bind = STB_LOCAL ∧
        ((localRun.1.sym 6).type = STT_FUNC ∨ (localRun.1.sym 6).type = STT_OBJECT) ∧ (localRun.1.sym 6).name ≠ "") ∧
      ∃ orig, (localRun.1.sym 6).name = mangleLocalSymbol (localRun.1.sym f).name orig := by
  obtain ⟨f, hf, hft, hall⟩ := main_local_symbols_qualified (by decide) (by decide) (by decide) (by decide) (by decide)
    (rfl : xspliceMain exampleTarget exampleTable false localExample localBase localPatched =
      .ok (.written localRun.1 localRun.2))
  exact ⟨f, hf, hft, ⟨by decide, by decide, by decide, by decide⟩, hall 6 (by decide) (by decide) (by decide) (by decide)⟩

example : (localRun.1.sym 6).name = "x.c#g" := by decide

/-! ## 無視する関数 -/

/-- ローダが作った base と patched のモデル（セクションは別のもので、どちらも不変条件を満たし、patched のセクションと
シンボルは番号の範囲にある）から `main` が出力を書けば、出力の最後のセクションは `.rela.xsplice.funcs` で、その
リロケーションは関数の列 `ps` の項目を順に埋める。`.xsplice.ignore.functions` のリロケーションが指す関数は、
どれも `SAME` のままで、`ps` にない：無視した関数はパッチの表に項目を持たない。 -/
theorem main_ignored_functions_unpatched {tgt : Target} {table : LookupTable} {resolve : Bool} {base patched out : Elf}
    (hbound : ∀ s ∈ patched.sections, s < m.nsec) (hboundY : ∀ y ∈ patched.symbols, y < m.nsym)
    (hdisj : ∀ s ∈ base.sections, s ∉ patched.sections) (hB : PrepInv m base) (hP : PrepInv m patched)
    (h : xspliceMain tgt table resolve m base patched = .ok (.written m' out)) :
    ∃ rp strsym ps, out.sections.getLast? = some rp ∧ (m'.sec rp).name = ".rela.xsplice.funcs" ∧
      PatchRelas tgt.layout strsym (fun _ _ => True) ps (m'.sec rp).relas ∧
      ∀ p r, findSectionByName m' patched.sections ".xsplice.ignore.functions" = some p → (m'.sec p).rela = some r →
        ∀ x ∈ (m'.sec r).relas, (m'.sym x.sym).status = .same ∧ x.sym ∉ ps := by
  obtain ⟨m1, n, g, hprep, h⟩ := xspliceMain_written h
  obtain ⟨hP1, hn1, hy1, hI1⟩ := mainPrepare_prepInv hdisj hB hP hprep
  exact mainEmit_ignoredUnpatched (fun s hs => hn1 ▸ hbound s hs) (fun y hy => hy1 ▸ hboundY y hy) hP1 hI1 h

/-- 局所的な関数 `g` と `h` を持つオブジェクトの二つの写し。一つの写しのセクションは `.text.g`、`.text.h`、
`.symtab`、シンボルは NULL、`x.c`、`g`、`h`、`.text.g`、`.text.h` の順。base はセクションとシンボルが 0 から、
patched はセクションが 3 から、シンボルが 6 からで、`g` と `h` のコードの先頭がどちらも `0x90` から `0xc3` に
変わる。patched には `XSPLICE_IGNORE_FUNCTION(g)` が置いた `.xsplice.ignore.functions`（セクション 6）があり、
そのリロケーションは `.text.g` のセクションのシンボル（シンボル 10）を指す。 -/
def ignoreExample : Mem :=
  let secs (j : Nat) (code : UInt8) : List Section :=
    [{ name := ".text.g", sh := { shType := SHT_PROGBITS, shFlags := 6, shSize := 4 },
       data := { dBuf := [code, 0, 0, 0], dSize := 4 }, sym := some (j + 2), secsym := some (j + 4), index := 1 },
     { name := ".text.h", sh := { shType := SHT_PROGBITS, shFlags := 6, shSize := 4 },
       data := { dBuf := [code, 0, 0, 0], dSize := 4 }, sym := some (j + 3), secsym := some (j + 5), index := 2 },
     { name := ".symtab", sh := { shType := 2, shSize := 24 }, data := { dBuf := List.replicate 24 0, dSize := 24 },
       index := 3 }]
  let syms (k : Nat) : List Symbol :=
    [{ name := "" },
     { name := "x.c", type := STT_FILE, sym := { stInfo := 4, stShndx := SHN_ABS } },
     { name := "g", type := STT_FUNC, bind := STB_LOCAL, sec := some k,
       sym := { stInfo := 2, stSize := 4, stShndx := 1 } },
     { name := "h", type := STT_FUNC, bind := STB_LOCAL, sec := some (k + 1),
       sym := { stInfo := 2, stSize := 4, stShndx := 2 } },
     { name := ".text.g", type := STT_SECTION, sec := some k, sym := { stInfo := 3, stShndx := 1 } },
     { name := ".text.h", type := STT_SECTION, sec := some (k + 1), sym := { stInfo := 3, stShndx := 2 } }]
  let ignore : List Section :=
    [{ name := ".xsplice.ignore.functions", sh := { shType := SHT_PROGBITS, shSize := 8 },
       data := { dBuf := List.replicate 8 0, dSize := 8 }, rela := some 7, index := 4 },
     { name := ".rela.xsplice.ignore.functions", sh := { shType := SHT_RELA, shEntsize := 24, shSize := 24 },
       data := { dSize := 24 }, base := some 6, index := 5, relas := [{ sym := 10, type := R_X86_64_64 }] }]
  Mem.ofLists (secs 0 0x90 ++ secs 6 0xc3 ++ ignore) (syms 0 ++ syms 3)

/-- `ignoreExample` の base。 -/
def ignoreBase : Elf := { sections := [0, 1, 2], symbols := List.range 6 }

/-- `ignoreExample` の patched。 -/
def ignorePatched : Elf := { sections := [3, 4, 5, 6, 7], symbols := [6, 7, 8, 9, 10, 11] }

/-- `ignoreExample` で `main` を走らせた結果。 -/
def ignoreRun : Mem × Elf :=
  match xspliceMain exampleTarget exampleTable false ignoreExample ignoreBase ignorePatched with
  | .ok (.written m out) => (m, out)
  | _ => (ignoreExample, ignorePatched)

/-- `xsplice_replace_sections_syms` が無視のリロケーションの参照先を `g`（シンボル 8）に置き換え、`g` は `SAME`
のままで、パッチの表の関数の列にない。 -/
theorem ignore_example_g_unpatched :
    (findSectionByName ignoreRun.1 ignorePatched.sections ".xsplice.ignore.functions" = some 6 ∧
      (ignoreRun.1.sec 6).rela = some 7 ∧ { sym := 8, type := R_X86_64_64 } ∈ (ignoreRun.1.sec 7).relas) ∧
      ∃ rp strsym ps, ignoreRun.2.sections.getLast? = some rp ∧ (ignoreRun.1.sec rp).name = ".rela.xsplice.funcs" ∧
        PatchRelas exampleTarget.layout strsym (fun _ _ => True) ps (ignoreRun.1.sec rp).relas ∧
        (ignoreRun.1.sym 8).status = .same ∧ 8 ∉ ps := by
  obtain ⟨rp, strsym, ps, hlast, hname, hrel, hign⟩ := main_ignored_functions_unpatched (by decide) (by decide)
    (by decide) (by decide) (by decide) (rfl : xspliceMain exampleTarget exampleTable false ignoreExample ignoreBase
      ignorePatched = .ok (.written ignoreRun.1 ignoreRun.2))
  exact ⟨⟨by decide, by decide, by decide⟩, rp, strsym, ps, hlast, hname, hrel,
    hign 6 7 (by decide) (by decide) { sym := 8, type := R_X86_64_64 } (by decide)⟩

/-- `g` のコードも変わったが、パッチの表のリロケーションが指すのは `h`（シンボル 9）と `.xsplice.strings` の
シンボル（シンボル 12）だけである。 -/
example : ((ignoreRun.1.sec 10).relas.map Rela.sym) = [9, 12] := by decide

/-! ## 書き出すパッチの表 -/

end XspliceDiff

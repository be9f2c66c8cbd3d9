import XspliceDiff.Lemmas.Correlate

/-!
# 静的な局所変数の対応づけが保つもの

`xsplice_correlate_static_local_variables` は、patched のまだ対のない静的な局所変数を、それを使う関数の相手が使う
base の変数と対にし、名前を相手のものに変える。変数がセクションに束ねられていれば、二つのセクションも対にする。
この段階が対応づけの不変条件（シンボルの対は名前の等しい対称な部分的な全単射、セクションの対は対称、束ねられた
シンボルとセクションは一緒に対を持つ）を保ち、名前と対と状態のほかを書き換えないことを示す。
-/

namespace XspliceDiff

/-! ## 対の形 -/

/-- `twin` が `l1` と `l2` の間の対称な部分的な全単射である（名前は問わない）。 -/
def TwinsPaired (twin : Nat → Option Nat) (l1 l2 : List Nat) : Prop :=
  (∀ p ∈ l1, ∀ q ∈ twin p, q ∈ l2 ∧ twin q = some p) ∧ (∀ q ∈ l2, ∀ p ∈ twin q, p ∈ l1 ∧ twin p = some q)

instance (twin : Nat → Option Nat) (l1 l2 : List Nat) : Decidable (TwinsPaired twin l1 l2) :=
  inferInstanceAs (Decidable (_ ∧ _))

instance (twin : Nat → Option Nat) (name : Nat → String) (l1 l2 : List Nat) :
    Decidable (TwinsSymmetric twin name l1 l2) :=
  decidable_of_iff ((∀ p ∈ l1, ∀ q ∈ twin p, q ∈ l2 ∧ twin q = some p ∧ name q = name p) ∧
    ∀ q ∈ l2, ∀ p ∈ twin q, p ∈ l1 ∧ twin p = some q) Iff.rfl

section Pairing

variable {twin twin' : Nat → Option Nat} {l1 l2 : List Nat} {b p : Nat}

theorem TwinsSymmetric.paired {name : Nat → String} (h : TwinsSymmetric twin name l1 l2) : TwinsPaired twin l1 l2 :=
  ⟨fun x hx q hq => ⟨(h.1 x hx q hq).1, (h.1 x hx q hq).2.1⟩, h.2⟩

theorem TwinsPaired.pair (h : TwinsPaired twin l1 l2) (hdisj : ∀ x ∈ l1, x ∉ l2) (hb : b ∈ l1) (hp : p ∈ l2)
    (hbn : twin b = none) (hpn : twin p = none)
    (htwin : ∀ x, twin' x = if x = b then some p else if x = p then some b else twin x) :
    TwinsPaired twin' l1 l2 := by
  have hne : ∀ {x y}, x ∈ l1 → y ∈ l2 → x ≠ y := fun hx hy hxy => hdisj _ hx (hxy ▸ hy)
  refine ⟨fun x hx q hq => ?_, fun q hq x hx => ?_⟩
  · rw [htwin, if_neg (hne hx hp)] at hq
    split_ifs at hq with hxb
    · obtain rfl := Option.some.inj hq
      exact ⟨hp, by rw [htwin, if_neg (hne hb hp).symm, if_pos rfl, hxb]⟩
    · obtain ⟨hq2, hqx⟩ := h.1 x hx q hq
      have hqp : q ≠ p := fun e => by rw [e, hpn] at hqx; cases hqx
      exact ⟨hq2, by rw [htwin, if_neg (hne hb hq2).symm, if_neg hqp, hqx]⟩
  · rw [htwin, if_neg (hne hb hq).symm] at hx
    split_ifs at hx with hqp
    · obtain rfl := Option.some.inj hx
      exact ⟨hb, by rw [htwin, if_pos rfl, hqp]⟩
    · obtain ⟨hx1, hxq⟩ := h.2 q hq x hx
      have hxb : x ≠ b := fun e => by rw [e, hbn] at hxq; cases hxq
      exact ⟨hx1, by rw [htwin, if_neg hxb, if_neg (hne hx1 hp), hxq]⟩

theorem TwinsSymmetric.pair {name name' : Nat → String} (h : TwinsSymmetric twin name l1 l2)
    (hdisj : ∀ x ∈ l1, x ∉ l2) (hb : b ∈ l1) (hp : p ∈ l2) (hbn : twin b = none) (hpn : twin p = none)
    (htwin : ∀ x, twin' x = if x = b then some p else if x = p then some b else twin x)
    (hname : ∀ x, name' x = if x = p then name b else name x) :
    TwinsSymmetric twin' name' l1 l2 := by
  have hpaired := h.paired.pair hdisj hb hp hbn hpn htwin
  refine ⟨fun x hx q hq => ⟨(hpaired.1 x hx q hq).1, (hpaired.1 x hx q hq).2, ?_⟩, hpaired.2⟩
  have hxp : x ≠ p := fun e => hdisj x hx (e ▸ hp)
  rw [hname, hname, if_neg hxp]
  rw [htwin, if_neg hxp] at hq
  split_ifs at hq with hxb
  · obtain rfl := Option.some.inj hq
    rw [if_pos rfl, hxb]
  · obtain ⟨-, hqx, hn⟩ := h.1 x hx q hq
    have hqp : q ≠ p := fun e => by rw [e, hpn] at hqx; cases hqx
    rw [if_neg hqp, hn]

end Pairing

/-! ## 探索の答え -/

theorem foldlM_mem_of_step {α β γ : Type} {f : α → β → Except Abort α} {g : α → Option γ} {Q : β → γ → Prop}
    (hf : ∀ a x a', f a x = .ok a' → ∀ c ∈ g a', c ∈ g a ∨ Q x c) :
    ∀ (l : List β) (a a' : α), l.foldlM f a = .ok a' → ∀ c ∈ g a', c ∈ g a ∨ ∃ x ∈ l, Q x c
  | [], a, a', h, c, hc => .inl (by cases h; exact hc)
  | x :: l, a, a', h, c, hc => by
    rw [List.foldlM_cons, bind_eq_ok] at h
    obtain ⟨a1, h1, h⟩ := h
    rcases foldlM_mem_of_step hf l a1 a' h c hc with hc | ⟨y, hy, hQ⟩
    · exact (hf a x a1 h1 c hc).imp_right fun hQ => ⟨x, List.mem_cons_self _ _, hQ⟩
    · exact .inr ⟨y, List.mem_cons_of_mem _ hy, hQ⟩

/-- `xsplice_find_static_twin` が見つける base の変数は、`sp` の相手のセクションのリロケーションが参照する、
まだ対のないシンボルである。 -/
theorem findStaticTwin_some {m : Mem} {sp : SecRef} {p b : SymRef}
    (h : xspliceFindStaticTwin m sp p = .ok (some b)) :
    ∃ tw, (m.sec sp).twin = some tw ∧ ∃ rela ∈ (m.sec tw).relas, rela.sym = b ∧ (m.sym b).twin = none := by
  dsimp only [xspliceFindStaticTwin] at h
  split at h
  · rename_i tw htw
    refine ⟨tw, htw, ?_⟩
    split at h
    · cases h
    refine ((foldlM_mem_of_step (g := id) (Q := fun rela b => rela.sym = b ∧ (m.sym b).twin = none) ?_ _ none
      _ h) b rfl).resolve_left (fun h => nomatch h)
    intro acc rela acc' hstep c hc
    split at hstep
    · exact .inl (Except.ok.inj hstep ▸ hc)
    split at hstep
    · exact .inl (Except.ok.inj hstep ▸ hc)
    rename_i hfree _
    have hacc : acc' = some rela.sym := by
      split at hstep
      · split_ifs at hstep
        · simp at hstep
        · exact (Except.ok.inj hstep).symm
      · exact (Except.ok.inj hstep).symm
    subst hacc
    obtain rfl := Option.some.inj hc
    exact .inr ⟨rfl, by simpa using hfree⟩
  · cases h

theorem staticTwinStep_snd {m : Mem} {p : SymRef} {acc acc' : Option SecRef × Option SymRef} {tp : SecRef}
    (h : staticTwinStep m p acc tp = .ok acc') :
    ∀ c ∈ acc'.2, c ∈ acc.2 ∨ xspliceFindStaticTwin m tp p = .ok (some c) := by
  intro c hc
  dsimp only [staticTwinStep] at h
  split_ifs at h
  · exact .inl (Except.ok.inj h ▸ hc)
  · exact .inl (Except.ok.inj h ▸ hc)
  simp only [pure_bind] at h
  obtain ⟨tmpsym, hfind, h⟩ := bind_eq_ok.mp h
  have hacc : acc' = (some tp, acc.2 <|> tmpsym) := by
    split at h
    · split_ifs at h
      · simp at h
      · exact (Except.ok.inj h).symm
    · exact (Except.ok.inj h).symm
  subst hacc
  cases hb : acc.2 with
  | none => rw [hb] at hc; exact .inr (hfind.trans (congrArg _ hc))
  | some b => rw [hb] at hc; exact .inl hc

theorem deref_eq_ok {α : Type} {o : Option α} {what : String} {a : α} : deref o what = .ok a ↔ o = some a := by
  cases o <;> simp [deref]

/-- 静的な局所変数 `p` の名前を base の `b` の名前にし、二つを互いの相手にする。 -/
def renameAndTwin (m : Mem) (p b : SymRef) : Mem :=
  twinSymbols (m.modSym p fun y => { y with name := (m.sym b).name }) p b

theorem correlateStaticLocal_cases {patched : Elf} {m m' : Mem} {p : SymRef}
    (h : correlateStaticLocal patched m p = .ok m') :
    m' = m ∨ ∃ b s bs, (m.sym p).twin = none ∧ (∃ tp ∈ patched.sections, xspliceFindStaticTwin m tp p = .ok (some b)) ∧
      (m.sym p).sec = some s ∧ (m.sym b).sec = some bs ∧ ((m.sec s).sym = some p ↔ (m.sec bs).sym = some b) ∧
      ((m.sec s).sym = some p ∧
          m' = ((renameAndTwin m p b).modSec s fun x => { x with twin := some bs }).modSec bs
            (fun x => { x with twin := some s }) ∨
        (m.sec s).sym ≠ some p ∧ (m.sec s).twin = some bs ∧ m' = renameAndTwin m p b) := by
  dsimp only [correlateStaticLocal] at h
  by_cases h1 : (decide ((m.sym p).type ≠ STT_OBJECT) || decide ((m.sym p).bind ≠ STB_LOCAL) ||
    (m.sym p).twin.isSome) = true
  · rw [if_pos h1] at h; exact .inl (Except.ok.inj h).symm
  rw [if_neg h1, pure_bind] at h
  by_cases h2 : isSpecialStatic m (some p) = true
  · rw [if_pos h2] at h; exact .inl (Except.ok.inj h).symm
  rw [if_neg h2, pure_bind] at h
  by_cases h3 : (!strchr (m.sym p).name '.') = true
  · rw [if_pos h3] at h; exact .inl (Except.ok.inj h).symm
  rw [if_neg h3] at h
  rw [pure_bind, bind_eq_ok] at h
  obtain ⟨⟨sec, basesym⟩, hfold, h⟩ := h
  dsimp only at h
  split at h
  · split at h
    · rename_i b
      rw [bind_eq_ok] at h
      obtain ⟨s, hs, h⟩ := h
      rw [bind_eq_ok] at h
      obtain ⟨bs, hbs, h⟩ := h
      simp only [Bool.or_eq_true, decide_eq_true_eq, not_or, Option.isSome_iff_ne_none, not_not] at h1
      have hfind := ((foldlM_mem_of_step (g := Prod.snd)
        (Q := fun tp c => xspliceFindStaticTwin m tp p = .ok (some c)) (fun _ _ _ h => staticTwinStep_snd h)
        patched.sections (none, none) _ hfold) b rfl).resolve_left (fun h => nomatch h)
      refine .inr ⟨b, s, bs, h1.2, hfind, deref_eq_ok.mp hs, deref_eq_ok.mp hbs, ?_⟩
      split at h
      · cases h
      rename_i hmis
      have hiff := Bool.eq_iff_iff.mp (not_not.mp hmis)
      simp only [beq_iff_eq] at hiff
      rw [pure_bind] at h
      split at h
      · cases h
      rename_i hcor
      rw [pure_bind] at h
      split at h <;> rename_i hbund <;> cases h <;> simp only [beq_iff_eq] at hbund
      · exact ⟨hiff, .inl ⟨hbund, rfl⟩⟩
      · exact ⟨hiff, .inr ⟨hbund, by simpa [hbund] using hcor, rfl⟩⟩
    · exact .inl (Except.ok.inj h).symm
  · cases h

/-! ## 書き換えるもの -/

/-- `m'` は、`m` のシンボルの名前と `twin` と状態、セクションの `twin` のほかを変えていない。 -/
structure OnlyTwins (m m' : Mem) : Prop where
  sec : ∀ s, { m'.sec s with twin := none } = { m.sec s with twin := none }
  sym : ∀ y, { m'.sym y with name := "", twin := none, status := .same } =
    { m.sym y with name := "", twin := none, status := .same }

namespace OnlyTwins

variable {m m' m'' : Mem}

theorem refl (m : Mem) : OnlyTwins m m := ⟨fun _ => rfl, fun _ => rfl⟩

theorem trans (h1 : OnlyTwins m m') (h2 : OnlyTwins m' m'') : OnlyTwins m m'' :=
  ⟨fun s => (h2.sec s).trans (h1.sec s), fun y => (h2.sym y).trans (h1.sym y)⟩

theorem relas (h : OnlyTwins m m') (s : SecRef) : (m'.sec s).relas = (m.sec s).relas := by
  have := congrArg Section.relas (h.sec s); exact this

theorem secSym (h : OnlyTwins m m') (s : SecRef) : (m'.sec s).sym = (m.sec s).sym := by
  have := congrArg Section.sym (h.sec s); exact this

theorem symSec (h : OnlyTwins m m') (y : SymRef) : (m'.sym y).sec = (m.sym y).sec := by
  have := congrArg Symbol.sec (h.sym y); exact this

theorem modSecTwin (m : Mem) (s : SecRef) (t : Option SecRef) :
    OnlyTwins m (m.modSec s fun x => { x with twin := t }) := by
  refine ⟨fun q => ?_, fun _ => rfl⟩
  by_cases hq : q = s <;> simp [hq]

end OnlyTwins

theorem renameAndTwin_sec (m : Mem) (p b : SymRef) : (renameAndTwin m p b).sec = m.sec := rfl

theorem renameAndTwin_twin (m : Mem) {p b : SymRef} (x : SymRef) :
    ((renameAndTwin m p b).sym x).twin = if x = b then some p else if x = p then some b else (m.sym x).twin := by
  rw [renameAndTwin, twinSymbols_twin]
  by_cases hx : x = p <;> simp [hx]

theorem renameAndTwin_name (m : Mem) {p b : SymRef} (x : SymRef) :
    ((renameAndTwin m p b).sym x).name = if x = p then (m.sym b).name else (m.sym x).name := by
  rw [renameAndTwin, twinSymbols_name]
  by_cases hx : x = p <;> simp [hx]

theorem renameAndTwin_onlyTwins (m : Mem) (p b : SymRef) : OnlyTwins m (renameAndTwin m p b) := by
  refine ⟨fun _ => rfl, fun y => ?_⟩
  simp only [renameAndTwin, twinSymbols, Mem.modSym_sym]
  split_ifs <;> simp_all

/-! ## 不変条件 -/

/-- 対応づけの不変条件。シンボルの対は base と patched の間の対称な部分的な全単射で、対の名前は等しい。
セクションの対も対称である（束ねられた静的な変数のセクションは名前が違っても対になるので、名前は問わない）。
束ねられたシンボルとそのセクションは、一緒に対を持つか、どちらも持たない。ほかの三つはローダーの与える形：
base のリロケーションは base のシンボルを参照し、シンボルのセクションは同じモデルにある。 -/
structure CorrelationInv (base patched : Elf) (m : Mem) : Prop where
  symTwins : TwinsSymmetric (fun y => (m.sym y).twin) (fun y => (m.sym y).name) base.symbols patched.symbols
  secTwins : TwinsPaired (fun s => (m.sec s).twin) base.sections patched.sections
  bundled : ∀ y ∈ base.symbols ++ patched.symbols, ∀ s ∈ (m.sym y).sec, (m.sec s).sym = some y →
    ((m.sec s).twin = none ↔ (m.sym y).twin = none)
  baseRelas : ∀ s ∈ base.sections, ∀ rela ∈ (m.sec s).relas, rela.sym ∈ base.symbols
  baseSec : ∀ y ∈ base.symbols, ∀ s ∈ (m.sym y).sec, s ∈ base.sections
  patchedSec : ∀ y ∈ patched.symbols, ∀ s ∈ (m.sym y).sec, s ∈ patched.sections

section Step

variable {base patched : Elf} (hsecDisj : ∀ s ∈ base.sections, s ∉ patched.sections)
  (hsymDisj : ∀ y ∈ base.symbols, y ∉ patched.symbols)
include hsecDisj hsymDisj

/-- `xsplice_correlate_static_local_variables` の一周は不変条件を保ち、名前と対と状態のほかを変えない。 -/
theorem CorrelationInv.step {m m' : Mem} {p : SymRef} (hp : p ∈ patched.symbols)
    (hinv : CorrelationInv base patched m) (h : correlateStaticLocal patched m p = .ok m') :
    CorrelationInv base patched m' ∧ OnlyTwins m m' := by
  rcases correlateStaticLocal_cases h with rfl | ⟨b, s, bs, hpn, ⟨tp, htp, hfind⟩, hs, hbs, hiff, hcase⟩
  · exact ⟨hinv, .refl _⟩
  obtain ⟨tw, htw, rela, hrela, rfl, hbn⟩ := findStaticTwin_some hfind
  have hb : rela.sym ∈ base.symbols := hinv.baseRelas tw (hinv.secTwins.2 tp htp tw htw).1 rela hrela
  have hframe : OnlyTwins m m' := by
    rcases hcase with ⟨-, rfl⟩ | ⟨-, -, rfl⟩
    · exact (renameAndTwin_onlyTwins m p _).trans ((OnlyTwins.modSecTwin _ _ _).trans (OnlyTwins.modSecTwin _ _ _))
    · exact renameAndTwin_onlyTwins m p _
  have hsymTwin : ∀ x, (m'.sym x).twin = if x = rela.sym then some p else if x = p then some rela.sym
      else (m.sym x).twin := by
    rcases hcase with ⟨-, rfl⟩ | ⟨-, -, rfl⟩ <;> exact renameAndTwin_twin m
  have hsymName : ∀ x, (m'.sym x).name = if x = p then (m.sym rela.sym).name else (m.sym x).name := by
    rcases hcase with ⟨-, rfl⟩ | ⟨-, -, rfl⟩ <;> exact renameAndTwin_name m
  have hpAll : p ∈ base.symbols ++ patched.symbols := List.mem_append_right _ hp
  have hbAll : rela.sym ∈ base.symbols ++ patched.symbols := List.mem_append_left _ hb
  have hpb : p ≠ rela.sym := fun e => hsymDisj _ hb (e ▸ hp)
  refine ⟨⟨hinv.symTwins.pair hsymDisj hb hp hbn hpn hsymTwin hsymName, ?_, ?_, fun s' hs' r hr => ?_,
    fun y hy s' hs' => ?_, fun y hy s' hs' => ?_⟩, hframe⟩
  · -- セクションの対：束ねられていれば、まだ対のない二つのセクションを対にする
    rcases hcase with ⟨hbund, rfl⟩ | ⟨-, -, rfl⟩
    · have hsn : (m.sec s).twin = none := (hinv.bundled p hpAll s hs hbund).mpr hpn
      have hbsn : (m.sec bs).twin = none := (hinv.bundled _ hbAll bs hbs (hiff.mp hbund)).mpr hbn
      have hbsB := hinv.baseSec _ hb bs hbs
      have hsP := hinv.patchedSec p hp s hs
      have hsbs : s ≠ bs := fun e => hsecDisj _ hbsB (e ▸ hsP)
      refine hinv.secTwins.pair hsecDisj hbsB hsP hbsn hsn fun x => ?_
      by_cases hx : x = bs <;> by_cases hx' : x = s <;> simp [hx, hx', hsbs, renameAndTwin_sec]
    · simpa only [renameAndTwin_sec] using hinv.secTwins
  · -- 束ねられたシンボルとそのセクション
    intro y hy s' hs' hsym'
    rw [hframe.symSec] at hs'
    rw [hframe.secSym] at hsym'
    have hold := hinv.bundled y hy s' hs' hsym'
    rw [hsymTwin]
    by_cases hyb : y = rela.sym
    · subst hyb
      obtain rfl : s' = bs := (Option.some.inj (hbs.symm.trans hs')).symm
      rcases hcase with ⟨-, rfl⟩ | ⟨hnb, -, -⟩
      · simp
      · exact absurd (hiff.mpr hsym') hnb
    by_cases hyp : y = p
    · subst hyp
      obtain rfl : s' = s := (Option.some.inj (hs.symm.trans hs')).symm
      rcases hcase with ⟨-, rfl⟩ | ⟨hnb, -, -⟩
      · have hsbs : s' ≠ bs := fun e => hsecDisj _ (hinv.baseSec _ hb bs hbs) (e ▸ hinv.patchedSec _ hp s' hs)
        simp [hpb, hsbs]
      · exact absurd hsym' hnb
    rw [if_neg hyb, if_neg hyp, ← hold]
    rcases hcase with ⟨hbund, rfl⟩ | ⟨-, -, rfl⟩
    · have hs's : s' ≠ s := fun e => hyp (Option.some.inj ((e ▸ hsym').symm.trans hbund))
      have hs'bs : s' ≠ bs := fun e => hyb (Option.some.inj ((e ▸ hsym').symm.trans (hiff.mp hbund)))
      simp [hs's, hs'bs, renameAndTwin_sec]
    · rfl
  · rw [hframe.relas] at hr; exact hinv.baseRelas s' hs' r hr
  · rw [hframe.symSec] at hs'; exact hinv.baseSec y hy s' hs'
  · rw [hframe.symSec] at hs'; exact hinv.patchedSec y hy s' hs'

/-- ループ全体：patched のシンボルを順に処理しても、不変条件は保たれ、名前と対と状態のほかは変わらない。 -/
theorem CorrelationInv.run : ∀ (l : List SymRef) {m m' : Mem}, (∀ p ∈ l, p ∈ patched.symbols) →
    CorrelationInv base patched m → l.foldlM (correlateStaticLocal patched) m = .ok m' →
    CorrelationInv base patched m' ∧ OnlyTwins m m'
  | [], _, _, _, hinv, h => by cases h; exact ⟨hinv, .refl _⟩
  | p :: l, _, _, hl, hinv, h => by
    rw [List.foldlM_cons, bind_eq_ok] at h
    obtain ⟨m1, h1, h⟩ := h
    obtain ⟨hinv1, hf1⟩ := hinv.step hsecDisj hsymDisj (hl p (List.mem_cons_self _ _)) h1
    obtain ⟨hinv', hf⟩ := CorrelationInv.run l (fun q hq => hl q (List.mem_cons_of_mem _ hq)) hinv1 h
    exact ⟨hinv', hf1.trans hf⟩

/-- `xsplice_correlate_static_local_variables` は対応づけの不変条件を保つ：成功すれば、シンボルの対は
base と patched の間の対称な部分的な全単射のままで、対の名前は等しく（改名した変数は相手の名前になる）、
セクションの対も対称なまま、束ねられたシンボルとそのセクションは一緒に対を持つ。書き換えるのは、
シンボルの名前と対と状態、セクションの対だけである。 -/
theorem correlate_static_locals_keep_pairs {m m' : Mem} (hinv : CorrelationInv base patched m)
    (h : xspliceCorrelateStaticLocalVariables m patched = .ok m') :
    CorrelationInv base patched m' ∧ OnlyTwins m m' :=
  CorrelationInv.run hsecDisj hsymDisj patched.symbols (fun _ h => h) hinv h

end Step

/-- base の `f` は `.bss` の `counter.7` と、自分のセクション `.bss.buf.3` に束ねられた `buf.3` を使い、patched の
`f` は `counter.9` と `buf.8` を使う。セクションは base が 0 から 3、patched が 4 から 7、シンボルは base が 0 から 2、
patched が 3 から 5。 -/
def staticPairExample : Mem := Mem.ofLists
  [{ name := ".text.f", sh := { shType := SHT_PROGBITS, shFlags := 6, shSize := 16 }, sym := some 0, rela := some 1 },
   { name := ".rela.text.f", sh := { shType := SHT_RELA, shEntsize := 24, shSize := 48 }, base := some 0,
     relas := [{ sym := 1, type := R_X86_64_PC32, offset := 2 }, { sym := 2, type := R_X86_64_PC32, offset := 8 }] },
   { name := ".bss", sh := { shType := SHT_NOBITS, shSize := 8 } },
   { name := ".bss.buf.3", sh := { shType := SHT_NOBITS, shSize := 16 }, sym := some 2 },
   { name := ".text.f", sh := { shType := SHT_PROGBITS, shFlags := 6, shSize := 16 }, sym := some 3, rela := some 5 },
   { name := ".rela.text.f", sh := { shType := SHT_RELA, shEntsize := 24, shSize := 48 }, base := some 4,
     relas := [{ sym := 4, type := R_X86_64_PC32, offset := 2 }, { sym := 5, type := R_X86_64_PC32, offset := 8 }] },
   { name := ".bss", sh := { shType := SHT_NOBITS, shSize := 8 } },
   { name := ".bss.buf.8", sh := { shType := SHT_NOBITS, shSize := 16 }, sym := some 5 }]
  [{ name := "f", type := STT_FUNC, sec := some 0 },
   { name := "counter.7", type := STT_OBJECT, sec := some 2 },
   { name := "buf.3", type := STT_OBJECT, sec := some 3 },
   { name := "f", type := STT_FUNC, sec := some 4 },
   { name := "counter.9", type := STT_OBJECT, sec := some 6 },
   { name := "buf.8", type := STT_OBJECT, sec := some 7 }]

/-- `staticPairExample` の base。 -/
def staticPairBase : Elf := { sections := [0, 1, 2, 3], symbols := [0, 1, 2] }

/-- `staticPairExample` の patched。 -/
def staticPairPatched : Elf := { sections := [4, 5, 6, 7], symbols := [3, 4, 5] }

/-- `staticPairExample` を `xsplice_correlate_elfs` で対応づけたもの。 -/
def staticPairCorrelated : Mem := xspliceCorrelateElfs staticPairExample staticPairBase staticPairPatched

/-- 静的な局所変数の段階の答え。 -/
def staticPairRun : Mem :=
  match xspliceCorrelateStaticLocalVariables staticPairCorrelated staticPairPatched with
  | .ok m => m
  | .error _ => staticPairCorrelated

example : ((staticPairRun.sym 4).name, (staticPairRun.sym 4).twin, (staticPairRun.sym 5).twin,
    (staticPairRun.sec 7).twin) = ("counter.7", some 1, some 2, some 3) := by decide

theorem static_pair_example_keeps_pairs :
    CorrelationInv staticPairBase staticPairPatched staticPairRun ∧ OnlyTwins staticPairCorrelated staticPairRun :=
  correlate_static_locals_keep_pairs (by decide) (by decide)
    ⟨by decide, by decide, by decide, by decide, by decide, by decide⟩ rfl

end XspliceDiff

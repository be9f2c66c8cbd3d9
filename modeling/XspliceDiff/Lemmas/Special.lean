import XspliceDiff.Lemmas.Basic

/-!
# 特別なセクションの詰め直しは正確である

`xsplice_regenerate_special_section` が成功したとき、歩いたグループは位置 0 から隙間なく並び、残すのは
セクションを含めた関数を参照するグループだけで、新しい中身とリロケーションは、残すグループを元の順に
詰めたものになる。ループの不変条件 `RegenInv` を一周ごとに保つことから示す。
-/

namespace XspliceDiff

/-! ## 詰め直しの仕様 -/

/-- リロケーション `rela` は、セクションを含めた関数を参照する。 -/
def targetsIncludedFunction (m : Mem) (rela : Rela) : Bool :=
  (m.sym rela.sym).type == STT_FUNC && (m.sym rela.sym).sec.any fun s => (m.sec s).included

/-- グループ `g`（始まりと大きさ）を残す：`g` の中のリロケーションのどれかが、セクションを含めた関数を参照する。 -/
def groupKept (m : Mem) (relas : List Rela) (g : Nat × Nat) : Bool :=
  relas.any fun rela => inGroup g.1 g.2 rela && targetsIncludedFunction m rela

/-- 歩いたグループのうち、残すもの。 -/
def keptGroups (m : Mem) (relas : List Rela) (groups : List (Nat × Nat)) : List (Nat × Nat) :=
  groups.filter (groupKept m relas)

/-- 位置 `s` から始まるグループを位置 `d` に写したときの、リロケーション。グループの中の位置は変わらない。 -/
def relocate (s d : Nat) (rela : Rela) : Rela :=
  { rela with offset := rela.offset + d - s, rOffset := rela.offset + d - s }

/-- グループ `gs` を位置 `d` から順に詰めたときの、リロケーションのリスト。 -/
def compactRelas (relas : List Rela) : List (Nat × Nat) → Nat → List Rela
  | [], _ => []
  | g :: gs, d => (relas.filter (inGroup g.1 g.2)).map (relocate g.1 d) ++ compactRelas relas gs (d + g.2)

/-- グループ `gs` のバイトを順に並べたもの。 -/
def compactBytes (src : List UInt8) (gs : List (Nat × Nat)) : List UInt8 :=
  gs.flatMap fun g => (src.drop g.1).take g.2

/-- 位置 `o` から、大きさ `ns` のグループを隙間なく並べたもの。 -/
def groupsFrom : Nat → List Nat → List (Nat × Nat)
  | _, [] => []
  | o, n :: ns => (o, n) :: groupsFrom (o + n) ns

theorem groupsFrom_append (o : Nat) (ns : List Nat) (n : Nat) :
    groupsFrom o (ns ++ [n]) = groupsFrom o ns ++ [(o + ns.sum, n)] := by
  induction ns generalizing o with
  | nil => simp [groupsFrom]
  | cons k ns ih => simp [groupsFrom, ih, Nat.add_assoc]

theorem end_le_of_mem_groupsFrom {o : Nat} {ns : List Nat} {g : Nat × Nat} (h : g ∈ groupsFrom o ns) :
    g.1 + g.2 ≤ o + ns.sum := by
  induction ns generalizing o with
  | nil => simp [groupsFrom] at h
  | cons k ns ih =>
    rcases List.mem_cons.mp h with rfl | h
    · simp
    · have := ih h
      simp only [List.sum_cons]
      omega

theorem compactRelas_append (relas : List Rela) (gs : List (Nat × Nat)) (g : Nat × Nat) (d : Nat) :
    compactRelas relas (gs ++ [g]) d =
      compactRelas relas gs d ++ (relas.filter (inGroup g.1 g.2)).map (relocate g.1 (d + (gs.map Prod.snd).sum)) := by
  induction gs generalizing d with
  | nil => simp [compactRelas]
  | cons h gs ih => simp [compactRelas, ih, Nat.add_assoc]

theorem keptGroups_sum_le (m : Mem) (relas : List Rela) (groups : List (Nat × Nat)) :
    ((keptGroups m relas groups).map Prod.snd).sum ≤ (groups.map Prod.snd).sum :=
  ((List.filter_sublist groups).map Prod.snd).sum_le_sum fun _ _ => Nat.zero_le _

/-! ## `should_keep_rela_group` -/

theorem keepRelaStep_eq {m : Mem} {start size : Nat} {found k : Bool} {rela : Rela}
    (h : keepRelaStep m start size found rela = .ok k) :
    k = (found || (inGroup start size rela && targetsIncludedFunction m rela)) := by
  unfold keepRelaStep at h
  split at h
  · next hc =>
    simp only [Bool.and_eq_true, beq_iff_eq] at hc
    cases hs : (m.sym rela.sym).sec with
    | none => simp [hs] at h
    | some s => simp_all [targetsIncludedFunction]
  · next hc =>
    simp only [Bool.and_eq_true, beq_iff_eq, not_and] at hc
    cases hg : inGroup start size rela <;> simp_all [targetsIncludedFunction]

theorem foldlM_keepRelaStep_eq {m : Mem} {start size : Nat} :
    ∀ {relas : List Rela} {found k : Bool}, relas.foldlM (keepRelaStep m start size) found = .ok k →
      k = (found || relas.any fun rela => inGroup start size rela && targetsIncludedFunction m rela)
  | [], _, _, h => by simpa using h.symm
  | rela :: relas, found, k, h => by
    rw [List.foldlM_cons, bind_eq_ok] at h
    obtain ⟨found', hstep, hrest⟩ := h
    rw [foldlM_keepRelaStep_eq hrest, keepRelaStep_eq hstep, List.any_cons, Bool.or_assoc]

theorem shouldKeepRelaGroup_eq {m : Mem} {relas : List Rela} {start size : Nat} {k : Bool}
    (h : shouldKeepRelaGroup m relas start size = .ok k) : k = groupKept m relas (start, size) := by
  simpa [groupKept] using foldlM_keepRelaStep_eq h

/-! ## グループのリロケーションを移す -/

section MoveGroupRelas

variable (o d n : Nat)

theorem moveGroupRelas_moved (m : Mem) (relas : List Rela) :
    (moveGroupRelas o d n m relas).2.1 = (relas.filter (inGroup o n)).map
      fun rela => { rela with offset := rela.offset - (o - d), rOffset := rela.offset - (o - d) } := by
  induction relas generalizing m with
  | nil => rfl
  | cons rela relas ih => by_cases h : inGroup o n rela <;> simp [moveGroupRelas, h, ih]

theorem moveGroupRelas_rest (m : Mem) (relas : List Rela) :
    (moveGroupRelas o d n m relas).2.2 = relas.filter fun rela => !inGroup o n rela := by
  induction relas generalizing m with
  | nil => rfl
  | cons rela relas ih => by_cases h : inGroup o n rela <;> simp [moveGroupRelas, h, ih]

@[simp] theorem moveGroupRelas_sec (m : Mem) (relas : List Rela) : (moveGroupRelas o d n m relas).1.sec = m.sec := by
  induction relas generalizing m with
  | nil => rfl
  | cons rela relas ih => by_cases h : inGroup o n rela <;> simp [moveGroupRelas, h, ih]

theorem moveGroupRelas_grows (m : Mem) (relas : List Rela) : m.Grows (moveGroupRelas o d n m relas).1 := by
  induction relas generalizing m with
  | nil => exact .refl m
  | cons rela relas ih =>
    by_cases h : inGroup o n rela
    · simpa only [moveGroupRelas, h, if_true] using (Mem.Grows.includeSym m rela.sym).trans (ih _)
    · simpa only [moveGroupRelas, h] using ih m

theorem moveGroupRelas_sym_included (m : Mem) (relas : List Rela) (y : SymRef) :
    ((moveGroupRelas o d n m relas).1.sym y).included =
      ((relas.filter (inGroup o n)).any (fun rela => y == rela.sym) || (m.sym y).included) := by
  induction relas generalizing m with
  | nil => rfl
  | cons rela relas ih =>
    by_cases h : inGroup o n rela
    · simp only [moveGroupRelas, h, if_true, ih, Mem.includeSym_sym_included, List.filter_cons, List.any_cons]
      cases y == rela.sym <;> simp
    · simp [moveGroupRelas, h, ih]

end MoveGroupRelas

theorem memcpyGroup_eq {cap : Nat} {dest src out : List UInt8} {destOffset srcOffset size : Nat}
    (h : memcpyGroup cap dest src destOffset srcOffset size = .ok out) :
    out = dest ++ (src.drop srcOffset).take size := by
  unfold memcpyGroup at h
  split_ifs at h
  exact (Except.ok.inj h).symm

/-! ## ループの一周と全体 -/

/-- ループの一周は、今の位置から始まる、`group_size` が返す大きさのグループを一つ加える。 -/
theorem regenerateStep_groups {special : SpecialSection} {kelf : Elf} {sp : SecRef} {src : List UInt8} {cap : Nat}
    {st st' : RegenState} (h : regenerateStep special kelf sp src cap st = .ok st') :
    ∃ n, special.groupSize st.mem kelf st.srcOffset = .ok n ∧ st'.srcOffset = st.srcOffset + n ∧
      st'.groups = st.groups ++ [(st.srcOffset, n)] := by
  simp only [regenerateStep, bind_eq_ok] at h
  obtain ⟨n, hn, keep, -, h⟩ := h
  refine ⟨n, hn, ?_⟩
  cases keep with
  | false =>
    simp only [Bool.not_false, if_true, pure_eq_ok, Except.ok.injEq] at h
    subst h; exact ⟨rfl, rfl⟩
  | true =>
    simp only [Bool.not_true, Bool.false_eq_true, if_false, pure_bind, bind_eq_ok] at h
    obtain ⟨dest, -, h⟩ := h
    cases h; exact ⟨rfl, rfl⟩

/-- ループの帰納法：`src_offset < sh_size` で回る一周が保つ性質は、成功したループ全体でも保たれ、ループは
`src_offset` が `sh_size` 以上になって止まる。 -/
theorem regenerateLoop_induct {special : SpecialSection} {kelf : Elf} {sp : SecRef} {src : List UInt8}
    {size : Nat} {P : RegenState → Prop}
    (hstep : ∀ st st', P st → st.srcOffset < size → regenerateStep special kelf sp src size st = .ok st' → P st') :
    ∀ {fuel : Nat} {st st' : RegenState}, P st → regenerateLoop special kelf sp src size fuel st = .ok st' →
      P st' ∧ size ≤ st'.srcOffset
  | 0, _, _, hP, h => by
    unfold regenerateLoop at h
    split_ifs at h with hlt
    exact Except.ok.inj h ▸ ⟨hP, Nat.le_of_not_lt hlt⟩
  | fuel + 1, st, _, hP, h => by
    unfold regenerateLoop at h
    split_ifs at h with hlt
    · obtain ⟨st1, hstep1, hrest⟩ := bind_eq_ok.mp h
      exact regenerateLoop_induct hstep (hstep st st1 hP hlt hstep1) hrest
    · exact Except.ok.inj h ▸ ⟨hP, Nat.le_of_not_lt hlt⟩

/-! ## ループの不変条件 -/

/-- `xsplice_regenerate_special_section` のループの不変条件。`m` は始めのメモリ、`src` は `base` の中身である。
歩いたグループは位置 0 から隙間なく並び、残したグループのバイトとリロケーションは詰めて写してあり、
`sp` には残したグループの外のリロケーションだけが残る。シンボルとセクションの `included` 以外は変わらない。 -/
structure RegenInv (m : Mem) (sp : SecRef) (src : List UInt8) (st : RegenState) : Prop where
  tiled : st.groups = groupsFrom 0 (st.groups.map Prod.snd)
  srcOffset : st.srcOffset = (st.groups.map Prod.snd).sum
  destOffset : st.destOffset = ((keptGroups m (m.sec sp).relas st.groups).map Prod.snd).sum
  dest : st.dest = compactBytes src (keptGroups m (m.sec sp).relas st.groups)
  newrelas : st.newrelas = compactRelas (m.sec sp).relas (keptGroups m (m.sec sp).relas st.groups) 0
  relas : (st.mem.sec sp).relas = (m.sec sp).relas.filter fun rela =>
    !(keptGroups m (m.sec sp).relas st.groups).any fun g => inGroup g.1 g.2 rela
  secIncluded : ∀ q, (st.mem.sec q).included = (m.sec q).included
  frame : ∀ q, q ≠ sp → st.mem.sec q = m.sec q
  secName : ∀ q, (st.mem.sec q).name = (m.sec q).name
  symName : ∀ y, (st.mem.sym y).name = (m.sym y).name
  symType : ∀ y, (st.mem.sym y).type = (m.sym y).type
  symSec : ∀ y, (st.mem.sym y).sec = (m.sym y).sec
  targets : ∀ rela ∈ st.newrelas, (st.mem.sym rela.sym).included = true

namespace RegenInv

variable {m : Mem} {sp : SecRef} {src : List UInt8} {st : RegenState}

theorem init : RegenInv m sp src { mem := m } where
  tiled := rfl
  srcOffset := rfl
  destOffset := rfl
  dest := rfl
  newrelas := rfl
  relas := by simp [keptGroups]
  secIncluded _ := rfl
  frame _ _ := rfl
  secName _ := rfl
  symName _ := rfl
  symType _ := rfl
  symSec _ := rfl
  targets _ h := nomatch h

theorem not_in_kept (hinv : RegenInv m sp src st) {rela : Rela} (h : st.srcOffset ≤ rela.offset) :
    (keptGroups m (m.sec sp).relas st.groups).any (fun g => inGroup g.1 g.2 rela) = false := by
  refine List.any_eq_false.mpr fun g hg => ?_
  have hend := end_le_of_mem_groupsFrom (hinv.tiled ▸ (List.mem_filter.mp hg).1)
  simp only [inGroup, Bool.and_eq_true, decide_eq_true_eq, hinv.srcOffset] at h ⊢
  omega

theorem targetsIncludedFunction_eq (hinv : RegenInv m sp src st) :
    targetsIncludedFunction st.mem = targetsIncludedFunction m := by
  funext rela
  simp [targetsIncludedFunction, hinv.symType, hinv.symSec, hinv.secIncluded]

theorem groupKept_eq (hinv : RegenInv m sp src st) (n : Nat) :
    groupKept st.mem (st.mem.sec sp).relas (st.srcOffset, n) = groupKept m (m.sec sp).relas (st.srcOffset, n) := by
  simp only [groupKept, hinv.relas, hinv.targetsIncludedFunction_eq, List.any_filter]
  congr 1
  funext rela
  by_cases h : st.srcOffset ≤ rela.offset
  · simp [hinv.not_in_kept h]
  · simp [inGroup, h]

theorem destOffset_le (hinv : RegenInv m sp src st) : st.destOffset ≤ st.srcOffset :=
  hinv.destOffset ▸ hinv.srcOffset ▸ keptGroups_sum_le _ _ _

theorem moved_eq (hinv : RegenInv m sp src st) (n : Nat) :
    (moveGroupRelas st.srcOffset st.destOffset n st.mem (st.mem.sec sp).relas).2.1 =
      ((m.sec sp).relas.filter (inGroup st.srcOffset n)).map (relocate st.srcOffset st.destOffset) := by
  have hd := hinv.destOffset_le
  rw [moveGroupRelas_moved, hinv.relas, List.filter_filter]
  have hfilter : ((m.sec sp).relas.filter fun rela => inGroup st.srcOffset n rela &&
      !(keptGroups m (m.sec sp).relas st.groups).any fun g => inGroup g.1 g.2 rela) =
      (m.sec sp).relas.filter (inGroup st.srcOffset n) := by
    refine List.filter_congr fun rela _ => ?_
    cases hg : inGroup st.srcOffset n rela
    · rfl
    · simp only [inGroup, Bool.and_eq_true, decide_eq_true_eq] at hg
      simp [hinv.not_in_kept hg.1]
  rw [hfilter]
  refine List.map_congr_left fun rela hr => ?_
  have hg := (List.mem_filter.mp hr).2
  simp only [inGroup, Bool.and_eq_true, decide_eq_true_eq] at hg
  have hoff : rela.offset - (st.srcOffset - st.destOffset) = rela.offset + st.destOffset - st.srcOffset := by omega
  simp [relocate, hoff]

theorem tiled_snoc (hinv : RegenInv m sp src st) (n : Nat) :
    st.groups ++ [(st.srcOffset, n)] = groupsFrom 0 ((st.groups ++ [(st.srcOffset, n)]).map Prod.snd) := by
  rw [List.map_append, List.map_singleton, groupsFrom_append, ← hinv.tiled, hinv.srcOffset, Nat.zero_add]

theorem srcOffset_snoc (hinv : RegenInv m sp src st) (n : Nat) :
    st.srcOffset + n = ((st.groups ++ [(st.srcOffset, n)]).map Prod.snd).sum := by
  simp [hinv.srcOffset]

theorem skip (hinv : RegenInv m sp src st) {n : Nat} (hk : groupKept m (m.sec sp).relas (st.srcOffset, n) = false) :
    RegenInv m sp src { st with srcOffset := st.srcOffset + n, groups := st.groups ++ [(st.srcOffset, n)] } := by
  have hkept : keptGroups m (m.sec sp).relas (st.groups ++ [(st.srcOffset, n)]) =
      keptGroups m (m.sec sp).relas st.groups := by
    simp [keptGroups, hk]
  exact { tiled := hinv.tiled_snoc n, srcOffset := hinv.srcOffset_snoc n,
          destOffset := by simpa [hkept] using hinv.destOffset, dest := by simpa [hkept] using hinv.dest,
          newrelas := by simpa [hkept] using hinv.newrelas, relas := by simpa [hkept] using hinv.relas,
          secIncluded := hinv.secIncluded, frame := hinv.frame, secName := hinv.secName, symName := hinv.symName,
          symType := hinv.symType,
          symSec := hinv.symSec, targets := hinv.targets }

theorem keep (hinv : RegenInv m sp src st) {n : Nat} (hk : groupKept m (m.sec sp).relas (st.srcOffset, n) = true) :
    let r := moveGroupRelas st.srcOffset st.destOffset n st.mem (st.mem.sec sp).relas
    RegenInv m sp src
      { mem := r.1.modSec sp fun x => { x with relas := r.2.2 }, srcOffset := st.srcOffset + n,
        destOffset := st.destOffset + n, dest := st.dest ++ (src.drop st.srcOffset).take n,
        newrelas := st.newrelas ++ r.2.1, groups := st.groups ++ [(st.srcOffset, n)] } := by
  have hkept : keptGroups m (m.sec sp).relas (st.groups ++ [(st.srcOffset, n)]) =
      keptGroups m (m.sec sp).relas st.groups ++ [(st.srcOffset, n)] := by
    simp [keptGroups, hk]
  have hg := moveGroupRelas_grows st.srcOffset st.destOffset n st.mem (st.mem.sec sp).relas
  refine { tiled := hinv.tiled_snoc n, srcOffset := hinv.srcOffset_snoc n, destOffset := ?_, dest := ?_,
           newrelas := ?_, relas := ?_, secIncluded := ?_, frame := ?_, secName := ?_,
           symName := fun y => (congrArg Symbol.name (hg.sym y)).trans (hinv.symName y),
           symType := fun y => (hg.symType y).trans (hinv.symType y),
           symSec := fun y => (hg.symSec y).trans (hinv.symSec y), targets := ?_ }
  · simp [hkept, hinv.destOffset]
  · simp [hinv.dest, hkept, compactBytes]
  · rw [hkept, compactRelas_append, ← hinv.newrelas, hinv.moved_eq, ← hinv.destOffset, Nat.zero_add]
  · simp only [Mem.modSec_sec_self, moveGroupRelas_rest, hinv.relas, List.filter_filter, hkept,
      List.any_append, List.any_cons, List.any_nil]
    refine List.filter_congr fun rela _ => ?_
    cases inGroup st.srcOffset n rela <;> simp
  · intro q
    by_cases hq : q = sp <;> simp [hq, hinv.secIncluded]
  · intro q hq
    simp [hq, hinv.frame q hq]
  · intro q
    by_cases hq : q = sp <;> simp [hq, hinv.secName]
  · intro rela hr
    rw [Mem.modSec_sym, moveGroupRelas_sym_included]
    rcases List.mem_append.mp hr with hr | hr
    · simp [hinv.targets rela hr]
    · rw [moveGroupRelas_moved] at hr
      obtain ⟨r, hmem, rfl⟩ := List.mem_map.mp hr
      simp only [Bool.or_eq_true, List.any_eq_true, beq_iff_eq]
      exact .inl ⟨r, hmem, rfl⟩

/-- ループの一周は不変条件を保つ。 -/
theorem step {special : SpecialSection} {kelf : Elf} {cap : Nat} {st' : RegenState}
    (hinv : RegenInv m sp src st) (h : regenerateStep special kelf sp src cap st = .ok st') :
    RegenInv m sp src st' := by
  simp only [regenerateStep, bind_eq_ok] at h
  obtain ⟨n, -, keep, hkeep, h⟩ := h
  have hk : groupKept m (m.sec sp).relas (st.srcOffset, n) = keep :=
    ((shouldKeepRelaGroup_eq hkeep).trans (hinv.groupKept_eq n)).symm
  cases keep with
  | false =>
    simp only [Bool.not_false, if_true, pure_eq_ok, Except.ok.injEq] at h
    exact h ▸ hinv.skip hk
  | true =>
    simp only [Bool.not_true, Bool.false_eq_true, if_false, pure_bind, bind_eq_ok] at h
    obtain ⟨dest, hdest, h⟩ := h
    cases h
    rw [memcpyGroup_eq hdest]
    exact hinv.keep hk

theorem loop {special : SpecialSection} {kelf : Elf} {size fuel : Nat} {st' : RegenState} (hinv : RegenInv m sp src st)
    (h : regenerateLoop special kelf sp src size fuel st = .ok st') : RegenInv m sp src st' :=
  (regenerateLoop_induct (fun _ _ hinv _ h => step hinv h) hinv h).1

end RegenInv

/-- 成功したループの歩いたグループは、どれも `sh_size` より前から始まり、その周回の状態（不変条件を満たす）で
`group_size` が返した大きさを持つ。 -/
theorem regenerateLoop_groupSizes {m : Mem} {sp : SecRef} {src : List UInt8} {special : SpecialSection}
    {kelf : Elf} {size fuel : Nat} {st : RegenState}
    (h : regenerateLoop special kelf sp src size fuel { mem := m } = .ok st) :
    size ≤ st.srcOffset ∧ ∀ g ∈ st.groups, g.1 < size ∧
      ∃ st0, RegenInv m sp src st0 ∧ special.groupSize st0.mem kelf g.1 = .ok g.2 := by
  refine (fun hP => ⟨hP.2, hP.1.2⟩) <| regenerateLoop_induct
    (P := fun st => RegenInv m sp src st ∧ ∀ g ∈ st.groups, g.1 < size ∧
      ∃ st0, RegenInv m sp src st0 ∧ special.groupSize st0.mem kelf g.1 = .ok g.2)
    (fun st st' hP hlt hstep => ⟨hP.1.step hstep, fun g hg => ?_⟩) ⟨.init, fun _ h => nomatch h⟩ h
  obtain ⟨n, hn, -, hgroups⟩ := regenerateStep_groups hstep
  rcases List.mem_append.mp (hgroups ▸ hg) with hg | hg
  · exact hP.2 g hg
  · rw [List.mem_singleton.mp hg]
    exact ⟨hlt, st, hP.1, hn⟩

/-! ## 詰め直しの正しさ -/

/-- `xsplice_regenerate_special_section` が成功したときの形：ループは始めのメモリから状態 `st` まで成功して回り、
`st` は不変条件を満たし、`src_offset` は揃えた大きさに等しく、その後の書き換えは `dest_offset` が 0 かどうかで
分かれる。 -/
theorem regenerate_ok_cases {special : SpecialSection} {m m' : Mem} {kelf : Elf} {sp : SecRef}
    {groups : List (Nat × Nat)} (hok : xspliceRegenerateSpecialSection special m kelf sp = .ok (m', groups)) :
    ∃ b st, (m.sec sp).base = some b ∧
      regenerateLoop special kelf sp (m.sec b).data.dBuf (m.sec b).sh.shSize (m.sec b).sh.shSize { mem := m } = .ok st ∧
      RegenInv m sp (m.sec b).data.dBuf st ∧ groups = st.groups ∧
      st.srcOffset = ((m.sec b).sh.shSize + (m.sec b).sh.shAddralign - 1) / (m.sec b).sh.shAddralign *
        (m.sec b).sh.shAddralign ∧
      (st.destOffset = 0 ∧ m' = (st.mem.modSec sp fun x => { x with status := .same, included := false }).modSec b
          (fun x => { x with status := .same, included := false }) ∨
       st.destOffset ≠ 0 ∧ m' = (st.mem.modSec sp fun x => { x with relas := st.newrelas, included := true }).modSec b
          (fun x => { x with included := true, data := { dBuf := st.dest, dSize := st.destOffset } })) := by
  cases hb : (m.sec sp).base with
  | none => simp [xspliceRegenerateSpecialSection, hb] at hok
  | some b =>
    simp only [xspliceRegenerateSpecialSection, hb, deref_some, ok_bind, bind_eq_ok, throw_eq_error,
      error_bind, pure_bind] at hok
    obtain ⟨st, hloop, hok⟩ := hok
    refine ⟨b, st, rfl, hloop, RegenInv.init.loop hloop, ?_⟩
    split_ifs at hok with halign hsize hzero <;> obtain ⟨rfl, rfl⟩ := Prod.mk.inj (Except.ok.inj hok)
    · exact ⟨rfl, not_not.mp hsize, .inl ⟨hzero, rfl⟩⟩
    · exact ⟨rfl, not_not.mp hsize, .inr ⟨hzero, rfl⟩⟩

/-- 例の入力：`.text.f` だけを含めてある。`.fixup` は `.rela.ex_table` の参照で `[0, 8)` と `[8, 16)` に分かれ、
前のグループは含めない `g` を、後ろのグループは `f` を参照する。`.ex_table` の二つ目の項目も `f` と `.fixup + 8` を指す。 -/
def fixupExample : Mem := Mem.ofLists
  [{ name := ".text.f", sh := { shType := SHT_PROGBITS, shFlags := 6, shSize := 8 }, sym := some 0, included := true },
   { name := ".text.g", sh := { shType := SHT_PROGBITS, shFlags := 6, shSize := 8 }, sym := some 1 },
   { name := ".fixup", sh := { shType := SHT_PROGBITS, shFlags := 6, shSize := 16, shAddralign := 1 },
     data := { dBuf := (List.range 16).map Nat.toUInt8, dSize := 16 }, secsym := some 2, rela := some 3 },
   { name := ".rela.fixup", sh := { shType := SHT_RELA, shEntsize := 24, shSize := 48 }, base := some 2,
     relas := [{ sym := 1, type := R_X86_64_PC32, offset := 1, rOffset := 1 },
               { sym := 0, type := R_X86_64_PC32, offset := 9, rOffset := 9 }] },
   { name := ".ex_table", sh := { shType := SHT_PROGBITS, shFlags := 2, shSize := 16, shAddralign := 4 },
     data := { dBuf := List.replicate 16 0, dSize := 16 }, rela := some 5 },
   { name := ".rela.ex_table", sh := { shType := SHT_RELA, shEntsize := 24, shSize := 96 }, base := some 4,
     relas := [{ sym := 1, type := R_X86_64_PC32, offset := 0, rOffset := 0 },
               { sym := 2, type := R_X86_64_PC32, offset := 4, rOffset := 4, addend := 0 },
               { sym := 0, type := R_X86_64_PC32, offset := 8, rOffset := 8 },
               { sym := 2, type := R_X86_64_PC32, offset := 12, rOffset := 12, addend := 8 }] }]
  [{ name := "f", type := STT_FUNC, sec := some 0 },
   { name := "g", type := STT_FUNC, sec := some 1 },
   { name := ".fixup", type := STT_SECTION, sec := some 2 }]

/-- 例の入力の ELF：セクション 0 から 5 と、シンボル 0 から 2。 -/
def fixupExampleElf : Elf := { sections := [0, 1, 2, 3, 4, 5], symbols := [0, 1, 2] }

/-- 例の入力で `.rela.fixup` を詰め直した結果。 -/
def fixupExampleRun : Mem × List (Nat × Nat) :=
  match xspliceRegenerateSpecialSection ⟨".fixup", fixupGroupSize⟩ fixupExample fixupExampleElf 3 with
  | .ok r => r
  | .error _ => (fixupExample, [])

/-- `m'` のどのリロケーションも、同じセクションにあった `m` のリロケーションと、参照先と `addend` が同じ。 -/
def KeepsAddends (m m' : Mem) : Prop :=
  ∀ q, ∀ rela ∈ (m'.sec q).relas, ∃ rela0 ∈ (m.sec q).relas, rela.sym = rela0.sym ∧ rela.addend = rela0.addend

theorem KeepsAddends.refl (m : Mem) : KeepsAddends m m := fun _ rela h => ⟨rela, h, rfl, rfl⟩

theorem KeepsAddends.trans {m1 m2 m3 : Mem} (h12 : KeepsAddends m1 m2) (h23 : KeepsAddends m2 m3) :
    KeepsAddends m1 m3 := by
  intro q rela h
  obtain ⟨r2, h2, hs2, ha2⟩ := h23 q rela h
  obtain ⟨r1, h1, hs1, ha1⟩ := h12 q r2 h2
  exact ⟨r1, h1, hs2.trans hs1, ha2.trans ha1⟩

theorem KeepsAddends.of_relas_eq {m m' : Mem} (h : ∀ q, (m'.sec q).relas = (m.sec q).relas) :
    KeepsAddends m m' := fun q rela hr => ⟨rela, h q ▸ hr, rfl, rfl⟩

theorem keepsAddends_foldlM {β : Type} {g : Mem → β → Except Abort Mem}
    (hg : ∀ m x m', g m x = .ok m' → KeepsAddends m m') :
    ∀ {l : List β} {m m' : Mem}, l.foldlM g m = .ok m' → KeepsAddends m m'
  | [], m, _, h => Except.ok.inj h ▸ KeepsAddends.refl m
  | x :: l, m, _, h => by
    rw [List.foldlM_cons, bind_eq_ok] at h
    obtain ⟨m1, h1, h2⟩ := h
    exact (hg m x m1 h1).trans (keepsAddends_foldlM hg h2)

theorem mem_compactRelas {relas : List Rela} :
    ∀ {gs : List (Nat × Nat)} {d : Nat} {rela : Rela}, rela ∈ compactRelas relas gs d →
      ∃ rela0 ∈ relas, rela.sym = rela0.sym ∧ rela.addend = rela0.addend
  | g :: gs, _, _, h => by
    rcases List.mem_append.mp h with h | h
    · obtain ⟨r, hr, rfl⟩ := List.mem_map.mp h
      exact ⟨r, (List.mem_filter.mp hr).1, rfl, rfl⟩
    · exact mem_compactRelas h

theorem regenerate_keeps_addends {special : SpecialSection} {m m' : Mem} {kelf : Elf} {sp : SecRef}
    {groups : List (Nat × Nat)} (hok : xspliceRegenerateSpecialSection special m kelf sp = .ok (m', groups)) :
    KeepsAddends m m' := by
  obtain ⟨b, st, -, -, hinv, -, -, hcase⟩ := regenerate_ok_cases hok
  -- `B` の書き換えはリロケーションに触れず、`R` のリロケーションは残りか、詰めたものになる
  have hrelas : ∀ q, (m'.sec q).relas =
      if q = sp then (if st.destOffset = 0 then (st.mem.sec sp).relas else st.newrelas) else (m.sec q).relas := by
    intro q
    rcases hcase with ⟨h0, rfl⟩ | ⟨h0, rfl⟩ <;> by_cases hq : q = sp <;> by_cases hb : q = b <;>
      simp_all [Mem.modSec_sec, hinv.frame]
  intro q rela hr
  rw [hrelas] at hr
  split_ifs at hr with hq
  · subst hq; exact ⟨rela, (List.mem_filter.mp (hinv.relas ▸ hr)).1, rfl, rfl⟩
  · subst hq; exact mem_compactRelas (hinv.newrelas ▸ hr)
  · exact ⟨rela, hr, rfl, rfl⟩

theorem includeAltinstrReplacement_grows (kelf : Elf) (m : Mem) (p : SecRef) :
    m.Grows (includeAltinstrReplacement kelf m p) := by
  have hsym : ∀ (m : Mem) y, m.Grows (if (m.sym y).sec = some p then m.includeSym y else m) := fun m y => by
    split_ifs; exacts [.includeSym m y, .refl m]
  unfold includeAltinstrReplacement
  split_ifs
  · exact .refl m
  · dsimp only
    split
    · exact (Mem.Grows.includeSec m p).trans (.foldl hsym _ _)
    · exact ((Mem.Grows.includeSec m p).trans (.foldl hsym _ _)).trans
        ((Mem.Grows.includeSec _ _).trans (.foldl (fun m (rela : Rela) => .includeSym m rela.sym) _ _))

/-- `xsplice_process_special_sections` は、どのリロケーションの参照先と `addend` も書き換えない。 -/
theorem process_special_sections_keeps_addends {m m' : Mem} {kelf : Elf}
    (h : xspliceProcessSpecialSections m kelf = .ok m') : KeepsAddends m m' := by
  simp only [xspliceProcessSpecialSections, bind_eq_ok, pure_eq_ok] at h
  obtain ⟨m1, hfold, h⟩ := h
  cases h
  refine (keepsAddends_foldlM ?_ hfold).trans (KeepsAddends.of_relas_eq fun q => ?_)
  · intro m special m' hstep
    split at hstep
    · split at hstep
      · obtain ⟨⟨m2, _⟩, hreg, hm⟩ := bind_eq_ok.mp hstep
        exact Except.ok.inj hm ▸ regenerate_keeps_addends hreg
      · exact Except.ok.inj hstep ▸ KeepsAddends.refl m
    · exact Except.ok.inj hstep ▸ KeepsAddends.refl m
  · exact (Mem.Grows.foldl (includeAltinstrReplacement_grows kelf) _ _).relas q

/-- 例の入力で特別なセクションを作り直した結果。 -/
def fixupExampleProcessed : Mem :=
  match xspliceProcessSpecialSections fixupExample fixupExampleElf with
  | .ok m => m
  | .error _ => fixupExample

theorem fixup_example_keeps_addends : KeepsAddends fixupExample fixupExampleProcessed :=
  @process_special_sections_keeps_addends fixupExample fixupExampleProcessed fixupExampleElf rfl

/-- 例の入力では `.fixup` の後ろのグループが位置 0 に詰められ、`.fixup` は 8 バイトになる。それでも
`.rela.ex_table` の `.fixup` への二つ目のリロケーションの `addend` は 8 のまま残り、`.fixup` の終わりを指す。 -/
theorem process_special_sections_fixup_addend_stale :
    (xspliceProcessSpecialSections fixupExample fixupExampleElf).toOption.map
      (fun m => ((m.sec 2).data, (m.sec 5).relas.map fun rela => (rela.sym, rela.offset, rela.addend))) =
    some ({ dBuf := [8, 9, 10, 11, 12, 13, 14, 15], dSize := 8 }, [(0, 0, 0), (2, 4, 8)]) := by
  decide


/-! ## 範囲を出るグループと並んでいない参照

ループは `src_offset < sh_size` だけを見てグループを写すので、最後のグループが `sh_size` を越えても写し、
揃えた大きさとの比べ合わせはループの後にしかしない。`sh_addralign` が 0 なら、その比べ合わせで 0 で割る。
`fixup_group_size` は `.rela.ex_table` のリロケーションを並んだ順に探すので、`.fixup` への参照が位置の順に
並んでいなければ、グループの境目は参照された位置にならない。 -/

/-- 大きさ `size`、揃え `align` の `.ex_table` を持つ入力：二つの項目 `[0, 8)` と `[8, 16)` は、どちらも
含めた関数 `f` を参照する。 -/
def exTableExample (size align : Nat) : Mem := Mem.ofLists
  [{ name := ".text.f", sh := { shType := SHT_PROGBITS, shFlags := 6, shSize := 8 }, sym := some 0, included := true },
   { name := ".ex_table", sh := { shType := SHT_PROGBITS, shFlags := 2, shSize := size, shAddralign := align },
     data := { dBuf := List.replicate size 0, dSize := size }, rela := some 2 },
   { name := ".rela.ex_table", sh := { shType := SHT_RELA, shEntsize := 24, shSize := 48 }, base := some 1,
     relas := [{ sym := 0, type := R_X86_64_PC32, offset := 0, rOffset := 0 },
               { sym := 0, type := R_X86_64_PC32, offset := 8, rOffset := 8 }] }]
  [{ name := "f", type := STT_FUNC, sec := some 0 }]

/-- `exTableExample` の ELF：セクション 0 から 2 と、シンボル 0。 -/
def exTableElf : Elf := { sections := [0, 1, 2], symbols := [0] }

/-- 12 バイトで揃えが 8 の `.ex_table` では、二つ目のグループ `[8, 16)` がセクションの外を読む（揃えた大きさは
16 なので、ループの後の比べ合わせは通る）。揃えが 0 なら、ループを終えた後に 0 で割る。 -/
theorem process_special_sections_out_of_bounds :
    xspliceProcessSpecialSections (exTableExample 12 8) exTableElf =
      .error (.undefined "memcpy reads past the end of the section") ∧
    xspliceProcessSpecialSections (exTableExample 16 0) exTableElf =
      .error (.undefined "division by zero: sh_addralign is 0") :=
  ⟨rfl, rfl⟩

/-- 12 バイトの `.fixup` と、`.fixup` の位置 0、8、4 をこの順に参照する `.rela.ex_table` を持つ入力。
`.rela.fixup` にリロケーションはない。 -/
def fixupOrderExample : Mem := Mem.ofLists
  [{ name := ".text.f", sh := { shType := SHT_PROGBITS, shFlags := 6, shSize := 8 }, sym := some 0, included := true },
   { name := ".fixup", sh := { shType := SHT_PROGBITS, shFlags := 6, shSize := 12, shAddralign := 4 },
     data := { dBuf := List.replicate 12 0, dSize := 12 }, secsym := some 1, rela := some 2 },
   { name := ".rela.fixup", sh := { shType := SHT_RELA, shEntsize := 24 }, base := some 1 },
   { name := ".ex_table", sh := { shType := SHT_PROGBITS, shFlags := 2, shSize := 24, shAddralign := 4 },
     data := { dBuf := List.replicate 24 0, dSize := 24 }, rela := some 4 },
   { name := ".rela.ex_table", sh := { shType := SHT_RELA, shEntsize := 24, shSize := 144 }, base := some 3,
     relas := [{ sym := 0, type := R_X86_64_PC32, offset := 0, rOffset := 0 },
               { sym := 1, type := R_X86_64_PC32, offset := 4, rOffset := 4, addend := 0 },
               { sym := 0, type := R_X86_64_PC32, offset := 8, rOffset := 8 },
               { sym := 1, type := R_X86_64_PC32, offset := 12, rOffset := 12, addend := 8 },
               { sym := 0, type := R_X86_64_PC32, offset := 16, rOffset := 16 },
               { sym := 1, type := R_X86_64_PC32, offset := 20, rOffset := 20, addend := 4 }] }]
  [{ name := "f", type := STT_FUNC, sec := some 0 },
   { name := ".fixup", type := STT_SECTION, sec := some 1 }]

/-- `fixupOrderExample` の ELF：セクション 0 から 4 と、シンボル 0 と 1。 -/
def fixupOrderElf : Elf := { sections := [0, 1, 2, 3, 4], symbols := [0, 1] }

/-- `.fixup` への参照が 0、8、4 の順に並ぶと、歩きは誤りなく終わるが、グループは `[0, 8)` と `[8, 12)` になり、
参照された位置 4 で区切られない。 -/
theorem fixup_groups_follow_list_order :
    (xspliceRegenerateSpecialSection ⟨".fixup", fixupGroupSize⟩ fixupOrderExample fixupOrderElf 2).toOption.map
      Prod.snd = some [(0, 8), (8, 4)] ∧
    ((fixupOrderExample.sec 4).relas.filter fun rela => (fixupOrderExample.sym rela.sym).name == ".fixup").map
      Rela.addend = [0, 8, 4] := by
  decide

/-! ## 位置の順に並んだ `.fixup` の参照

`.rela.ex_table` の `.fixup` への参照が `addend` の小さい順に並び、どれも `.fixup` の中を指すなら、
`fixup_group_size` の歩きのグループは、参照された位置を順につないだ区間になる。 -/

/-- `.rela.ex_table` のリロケーション `relas` のうち `.fixup` を参照するものの `addend` を、並んだ順に。 -/
def fixupAddends (m : Mem) (relas : List Rela) : List Int :=
  (relas.filter fun rela => (m.sym rela.sym).name == ".fixup").map Rela.addend

/-- 昇順の位置 `as` で区切ったグループ：隣の位置までの区間を順に並べ、最後は `n` まで。 -/
def fixupIntervals : List Int → Nat → List (Nat × Nat)
  | [], _ => []
  | [a], n => [(a.toNat, n - a.toNat)]
  | a :: b :: rest, n => (a.toNat, (b - a).toNat) :: fixupIntervals (b :: rest) n

theorem dropWhile_fixup {F : Rela → Bool} {a : Int} :
    ∀ {R : List Rela} {pre post : List Int}, (R.filter F).map Rela.addend = pre ++ a :: post → a ∉ pre →
      ∃ r rest, R.dropWhile (fun rela => !(F rela && rela.addend == a)) = r :: rest ∧
        (rest.filter F).map Rela.addend = post
  | [], pre, _, h, _ => by cases pre <;> simp at h
  | r :: R, pre, post, h, ha => by
    by_cases hF : F r
    · simp only [List.filter_cons, hF, if_true, List.map_cons] at h
      cases pre with
      | nil =>
        obtain ⟨rfl, rfl⟩ := List.cons.inj h
        exact ⟨r, R, by simp [hF], rfl⟩
      | cons b pre =>
        obtain ⟨rfl, htail⟩ := List.cons.inj h
        have hne : r.addend ≠ a := fun he => ha (he ▸ List.mem_cons_self _ _)
        rw [List.dropWhile_cons, if_pos (by simp [hne])]
        exact dropWhile_fixup htail fun h' => ha (List.mem_cons_of_mem _ h')
    · simp only [List.filter_cons, hF, Bool.false_eq_true, if_false] at h
      rw [List.dropWhile_cons, if_pos (by simp [hF])]
      exact dropWhile_fixup h ha

theorem find?_next_fixup {F : Rela → Bool} {a : Int} :
    ∀ {rest : List Rela} {post : List Int}, (rest.filter F).map Rela.addend = post → (∀ b ∈ post, a < b) →
      (rest.find? fun rela => F rela && decide (rela.addend > a)).map Rela.addend = post.head?
  | [], post, h, _ => by simp only [List.filter_nil, List.map_nil] at h; subst h; rfl
  | r :: rest, post, h, hlt => by
    by_cases hF : F r
    · simp only [List.filter_cons, hF, if_true, List.map_cons] at h
      subst h
      simp [List.find?_cons, hF, hlt r.addend (List.mem_cons_self _ _)]
    · simp only [List.filter_cons, hF, Bool.false_eq_true, if_false] at h
      simpa [List.find?_cons, hF] using find?_next_fixup h hlt

/-- 並んだ参照の位置 `a` での `fixup_group_size` は、次に参照された位置までの距離、最後の参照なら `.fixup` の
終わりまでの距離。 -/
theorem fixupGroupSize_sorted {m : Mem} {kelf : Elf} {e f : SecRef} {pre post : List Int} {a : Int}
    (he : findSectionByName m kelf.sections ".rela.ex_table" = some e)
    (hf : findSectionByName m kelf.sections ".fixup" = some f)
    (hsorted : (fixupAddends m (m.sec e).relas).Sorted (· < ·))
    (hA : fixupAddends m (m.sec e).relas = pre ++ a :: post) (ha : 0 ≤ a) :
    fixupGroupSize m kelf a.toNat =
      .ok ((post.head?.map fun b => (b - a).toNat).getD ((m.sec f).sh.shSize - a.toNat)) := by
  rw [hA, List.Sorted, List.pairwise_append, List.pairwise_cons] at hsorted
  obtain ⟨-, ⟨hpost, -⟩, hpre⟩ := hsorted
  have hnot : a ∉ pre := fun h => lt_irrefl a (hpre a h a (List.mem_cons_self _ _))
  obtain ⟨r, rest, hdrop, hrest⟩ := dropWhile_fixup hA hnot
  have hfind := find?_next_fixup (a := a) hrest hpost
  have hcast : ((a.toNat : Nat) : Int) = a := Int.toNat_of_nonneg ha
  unfold fixupGroupSize
  simp only [he, hcast, hdrop]
  cases post with
  | nil =>
    rw [Option.map_eq_none'.mp hfind]
    simp [hf, deref]
  | cons b post =>
    obtain ⟨rela, hrela, hb⟩ := Option.map_eq_some'.mp hfind
    rw [hrela]
    simp [hb]

theorem fixupGroupSize_ok_mem {m : Mem} {kelf : Elf} {e : SecRef} {offset n : Nat}
    (he : findSectionByName m kelf.sections ".rela.ex_table" = some e)
    (h : fixupGroupSize m kelf offset = .ok n) : (offset : Int) ∈ fixupAddends m (m.sec e).relas := by
  unfold fixupGroupSize at h
  simp only [he] at h
  split at h
  · cases h
  · rename_i r rest hdrop
    have hr := List.head_dropWhile_not _ _ (hdrop ▸ List.cons_ne_nil r rest)
    simp only [hdrop, List.head_cons, Bool.not_eq_false', Bool.and_eq_true, beq_iff_eq] at hr
    have hmem : r ∈ (m.sec e).relas := (List.dropWhile_suffix _).subset (hdrop ▸ List.mem_cons_self r rest)
    exact List.mem_map.mpr ⟨r, List.mem_filter.mpr ⟨hmem, beq_iff_eq.mpr hr.1⟩, hr.2⟩

theorem fixupGroupSize_frame {m m' : Mem} {kelf : Elf} {sp e f : SecRef}
    (hname : ∀ q, (m'.sec q).name = (m.sec q).name) (hsymName : ∀ y, (m'.sym y).name = (m.sym y).name)
    (hframe : ∀ q, q ≠ sp → m'.sec q = m.sec q)
    (he : findSectionByName m kelf.sections ".rela.ex_table" = some e)
    (hf : findSectionByName m kelf.sections ".fixup" = some f) (hes : e ≠ sp) (hfs : f ≠ sp) :
    fixupGroupSize m' kelf = fixupGroupSize m kelf := by
  have hfind : findSectionByName m' kelf.sections = findSectionByName m kelf.sections := by
    unfold findSectionByName; simp only [hname]
  funext offset
  unfold fixupGroupSize
  simp only [hfind, he, hf, hsymName, hframe e hes, deref_some, ok_bind, hframe f hfs]

theorem regenerateLoop_groups {m : Mem} {sp : SecRef} {src : List UInt8} {special : SpecialSection} {kelf : Elf}
    {size fuel : Nat} {st : RegenState}
    (hgs : ∀ st, RegenInv m sp src st → special.groupSize st.mem kelf = special.groupSize m kelf)
    (h : regenerateLoop special kelf sp src size fuel { mem := m } = .ok st) :
    size ≤ st.srcOffset ∧ ∀ g ∈ st.groups, g.1 < size ∧ special.groupSize m kelf g.1 = .ok g.2 := by
  obtain ⟨hend, hg⟩ := regenerateLoop_groupSizes h
  exact ⟨hend, fun g hmem => (hg g hmem).imp_right fun ⟨st0, hinv, hn⟩ => hgs st0 hinv ▸ hn⟩

theorem head_of_mem_split {pre rest : List Int} {o : Int} (hsort : rest.Sorted (· < ·))
    (hpre : ∀ x ∈ pre, x < o) (hrest : ∀ x ∈ rest, o ≤ x) (ho : o ∈ pre ++ rest) : ∃ rest', rest = o :: rest' := by
  rcases List.mem_append.mp ho with h | h
  · exact absurd (hpre _ h) (lt_irrefl _)
  · cases rest with
    | nil => cases h
    | cons a rest =>
      rcases List.mem_cons.mp h with rfl | h
      · exact ⟨rest, rfl⟩
      · have := (List.pairwise_cons.mp hsort).1 _ h
        have := hrest a (List.mem_cons_self _ _)
        omega

/-- 区切りの組み合わせ：グループ `groupsFrom o sizes` がどれも `n` より前から始まり `G` の返す大きさを持ち、
`n` まで届くなら、それは `o` 以上の参照の位置 `rest` で区切ったグループである。 -/
theorem groupsFrom_eq_fixupIntervals {G : Nat → Except Abort Nat} {A : List Int} {n : Nat}
    (hG : ∀ pre a post, A = pre ++ a :: post →
      G a.toNat = .ok ((post.head?.map fun b => (b - a).toNat).getD (n - a.toNat)))
    (hmem : ∀ o s, G o = .ok s → (o : Int) ∈ A)
    (hsorted : A.Sorted (· < ·)) (hrange : ∀ a ∈ A, 0 ≤ a ∧ a < n) :
    ∀ (sizes : List Nat) (o : Nat) (pre rest : List Int), A = pre ++ rest → (∀ x ∈ pre, x < o) →
      (∀ x ∈ rest, o ≤ x) → (∀ g ∈ groupsFrom o sizes, g.1 < n ∧ G g.1 = .ok g.2) → n ≤ o + sizes.sum →
      groupsFrom o sizes = fixupIntervals rest n
  | [], o, pre, rest, hA, _, hrest, _, hend => by
    cases rest with
    | nil => rfl
    | cons a rest =>
      have h1 := hrange a (hA ▸ List.mem_append_right _ (List.mem_cons_self _ _))
      have h2 := hrest a (List.mem_cons_self _ _)
      simp only [List.sum_nil, Nat.add_zero] at hend
      omega
  | s :: sizes, o, pre, rest, hA, hpre, hrest, hg, hend => by
    simp only [groupsFrom, List.mem_cons, forall_eq_or_imp] at hg
    have hsort : rest.Sorted (· < ·) := (List.pairwise_append.mp (hA ▸ hsorted)).2.1
    -- 位置 `o` は参照された位置なので、`rest` の先頭にある
    obtain ⟨rest, rfl⟩ := head_of_mem_split hsort hpre hrest (hA ▸ hmem o s hg.1.2)
    have hs := hg.1.2
    rw [← Int.toNat_natCast o, hG pre _ rest hA, Int.toNat_natCast, Except.ok.injEq] at hs
    cases rest with
    | nil =>
      simp only [List.head?_nil, Option.map_none', Option.getD_none] at hs
      cases sizes with
      | nil => simp [groupsFrom, fixupIntervals, ← hs]
      | cons s' sizes =>
        have := (hg.2 _ (List.mem_cons_self _ _)).1
        omega
    | cons b rest =>
      simp only [List.head?_cons, Option.map_some', Option.getD_some] at hs
      have hob : (o : Int) < b := (List.pairwise_cons.mp hsort).1 b (List.mem_cons_self _ _)
      have hnext : o + s = b.toNat := by omega
      rw [groupsFrom, fixupIntervals, Int.toNat_natCast, hnext, ← hs]
      congr 1
      refine groupsFrom_eq_fixupIntervals hG hmem hsorted hrange sizes b.toNat (pre ++ [(o : Int)]) (b :: rest)
        (by simp [hA]) (fun x hx => ?_) (fun x hx => ?_) (hnext ▸ hg.2) (by simp only [List.sum_cons] at hend; omega)
      · rcases List.mem_append.mp hx with hx | hx
        · have := hpre x hx; omega
        · rw [List.mem_singleton.mp hx]; omega
      · rcases List.mem_cons.mp hx with rfl | hx
        · omega
        · have := (List.pairwise_cons.mp (List.pairwise_cons.mp hsort).2).1 x hx; omega

/-- `.rela.ex_table` の `.fixup` への参照が `addend` の小さい順に並び、どれも `.fixup` の中を指すなら、
`.rela.fixup` の詰め直しが成功したとき、歩いたグループは参照された位置を順につないだ区間で、最後のものは
`.fixup` の終わりまで届く。 -/
theorem fixup_groups_between_sorted_refs {m m' : Mem} {kelf : Elf} {sp e f : SecRef} {groups : List (Nat × Nat)}
    (he : findSectionByName m kelf.sections ".rela.ex_table" = some e)
    (hf : findSectionByName m kelf.sections ".fixup" = some f) (hbase : (m.sec sp).base = some f)
    (hes : e ≠ sp) (hfs : f ≠ sp) (hsorted : (fixupAddends m (m.sec e).relas).Sorted (· < ·))
    (hrange : ∀ a ∈ fixupAddends m (m.sec e).relas, 0 ≤ a ∧ a < (m.sec f).sh.shSize)
    (hok : xspliceRegenerateSpecialSection ⟨".fixup", fixupGroupSize⟩ m kelf sp = .ok (m', groups)) :
    groups = fixupIntervals (fixupAddends m (m.sec e).relas) (m.sec f).sh.shSize := by
  obtain ⟨b, st, hb, hloop, hinv, rfl, -⟩ := regenerate_ok_cases hok
  obtain rfl : b = f := Option.some.inj (hb.symm.trans hbase)
  obtain ⟨hend, hg⟩ := regenerateLoop_groups
    (fun _ hinv => fixupGroupSize_frame hinv.secName hinv.symName hinv.frame he hf hes hfs) hloop
  rw [hinv.tiled] at hg ⊢
  rw [hinv.srcOffset, ← Nat.zero_add (List.sum _)] at hend
  exact groupsFrom_eq_fixupIntervals (fun _ a _ hA => fixupGroupSize_sorted he hf hsorted hA (hrange a (by simp [hA])).1)
    (fun _ _ h => fixupGroupSize_ok_mem he h) hsorted hrange _ 0 [] _ rfl (fun _ h => nomatch h)
    (fun x hx => (hrange x hx).1) hg hend

theorem fixup_example_groups_between_refs :
    fixupExampleRun.2 = fixupIntervals (fixupAddends fixupExample (fixupExample.sec 5).relas)
      (fixupExample.sec 2).sh.shSize :=
  @fixup_groups_between_sorted_refs fixupExample fixupExampleRun.1 fixupExampleElf 3 5 2 fixupExampleRun.2 rfl rfl rfl
    (by decide) (by decide) (by decide) (by decide) rfl

end XspliceDiff

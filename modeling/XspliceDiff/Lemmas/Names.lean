import XspliceDiff.Lemmas.Basic

/-!
# `xsplice_mangled_strcmp` は正規形の比較である

`xsplice_mangled_strcmp` が 0 を返すのは、二つの名前の正規形が等しいときに限る。正規形は、最初の NUL の前までを
読み、`.` に一つ以上の数字が続くところを、その数字の並び（最も長いもの）ごと一つの印に置き換えたものである。
したがって、0 を返すという関係は同値関係である。
-/

namespace XspliceDiff

/-! ## 正規形 -/

/-- 正規形の字句：そのままの文字か、`.` と数字の並びを置き換えた印。 -/
inductive MangledToken where
  | char (c : Char)
  | marker
  deriving DecidableEq, Repr

/-- 名前の正規形。最初の NUL で終わり、`.` に一つ以上の数字が続くところは、数字の並びごと一つの印になる。 -/
def mangledNormal (l : List Char) : List MangledToken :=
  if peek l = '\x00' then []
  else if peek l = '.' ∧ isdigit (peek (l.drop 1)) = true then
    .marker :: mangledNormal ((l.drop 1).dropWhile isdigit)
  else .char (peek l) :: mangledNormal (l.drop 1)
termination_by l.length
decreasing_by
  all_goals simp_wf
  all_goals cases l with
    | nil => simp_all [peek]
    | cons c cs => first
      | exact Nat.lt_succ_of_le (List.dropWhile_suffix isdigit).length_le
      | simp

theorem mangledNormal_eq (l : List Char) :
    mangledNormal l =
      if peek l = '\x00' then []
      else if peek l = '.' ∧ isdigit (peek (l.drop 1)) = true then
        .marker :: mangledNormal ((l.drop 1).dropWhile isdigit)
      else .char (peek l) :: mangledNormal (l.drop 1) := by
  rw [mangledNormal]

theorem length_pos_of_peek_ne {l : List Char} (h : peek l ≠ '\x00') : 0 < l.length := by
  cases l with
  | nil => exact absurd rfl h
  | cons => simp

theorem head_mangledNormal (l : List Char) :
    (mangledNormal l).head? =
      if peek l = '\x00' then none
      else if peek l = '.' ∧ isdigit (peek (l.drop 1)) = true then some .marker
      else some (.char (peek l)) := by
  rw [mangledNormal]
  split_ifs <;> rfl

theorem peek_eq_of_mangledNormal_eq {l1 l2 : List Char} (h : mangledNormal l1 = mangledNormal l2) :
    peek l1 = peek l2 := by
  have hh := congrArg List.head? h
  rw [head_mangledNormal, head_mangledNormal] at hh
  split_ifs at hh with h1 h2 h3 h4 h5 h6 h7 h8 <;> simp_all

/-! ## ループは正規形を比べる -/

/-- 燃料が `s1` の長さより多ければ、`xsplice_mangled_strcmp` のループが 0 を返すのは、正規形が等しいときに限る。
一周ごとに、両方の正規形の先頭の字句を比べて取り除く。 -/
theorem mangledStrcmpLoop_eq_zero_iff :
    ∀ (fuel : Nat) (s1 s2 : List Char), s1.length < fuel →
      (mangledStrcmpLoop fuel s1 s2 = 0 ↔ mangledNormal s1 = mangledNormal s2)
  | 0, _, _, h => absurd h (Nat.not_lt_zero _)
  | fuel + 1, s1, s2, h => by
    have ih := mangledStrcmpLoop_eq_zero_iff fuel
    rw [mangledStrcmpLoop]
    obtain hab | hab := ne_or_eq (peek s1) (peek s2)
    · -- 先頭の文字が違えば、正規形の先頭の字句も違う
      simp only [hab, if_false, one_ne_zero, false_iff]
      exact fun hn => hab (peek_eq_of_mangledNormal_eq hn)
    rw [mangledNormal_eq s1, mangledNormal_eq s2, ← hab]
    by_cases hnul : peek s1 = '\x00'
    · simp [hnul]
    have hlen : (s1.drop 1).length < fuel := by
      have := length_pos_of_peek_ne hnul
      simp only [List.length_drop]; omega
    simp only [if_true, if_neg hnul]
    by_cases hdot : peek s1 = '.' ∧ isdigit (peek (s1.drop 1)) = true
    · have hdot2 : isdigit (peek (s2.drop 1)) = true ↔ peek s1 = '.' ∧ isdigit (peek (s2.drop 1)) = true :=
        ⟨fun h => ⟨hdot.1, h⟩, And.right⟩
      by_cases hd2 : isdigit (peek (s2.drop 1)) = true
      · have hrun := Nat.lt_of_le_of_lt (List.dropWhile_suffix isdigit).length_le hlen
        have hnf : ¬isdigit (peek (s2.drop 1)) = false := fun h => by rw [hd2] at h; cases h
        simp only [if_pos hdot, if_pos (hdot2.mp hd2), if_neg hnf, List.cons.injEq, true_and]
        exact ih _ _ hrun
      · simp only [if_pos hdot, if_neg (mt hdot2.mpr hd2), if_pos (Bool.eq_false_iff.mpr hd2), one_ne_zero,
          false_iff]
        simp
    · rw [if_neg hdot, if_neg hdot]
      by_cases hdot2 : peek s1 = '.' ∧ isdigit (peek (s2.drop 1)) = true
      · -- `s1` の `.` の後は数字でなく、`s2` の `.` の後は数字：先頭の文字から、どちらの側も成り立たない
        simp only [if_pos hdot2, List.cons.injEq, reduceCtorEq, false_and, iff_false, ih _ _ hlen]
        exact fun hn => hdot ⟨hdot2.1, (peek_eq_of_mangledNormal_eq hn).symm ▸ hdot2.2⟩
      · simp only [if_neg hdot2, List.cons.injEq, true_and]
        exact ih _ _ hlen

theorem mangledStrcmpLoop_le_one : ∀ (fuel : Nat) (s1 s2 : List Char), mangledStrcmpLoop fuel s1 s2 ≤ 1
  | 0, _, _ => le_rfl
  | fuel + 1, s1, s2 => by
    rw [mangledStrcmpLoop]
    split_ifs <;> first | omega | exact mangledStrcmpLoop_le_one fuel _ _

/-! ## 最初の NUL の後ろは読まない -/

theorem peek_cons (c : Char) (l : List Char) : peek (c :: l) = c := rfl

theorem peek_append_nul (l rest : List Char) : peek (l ++ '\x00' :: rest) = peek l := by
  cases l <;> rfl

theorem dropWhile_isdigit_append_nul (rest : List Char) :
    ∀ l : List Char, (l ++ '\x00' :: rest).dropWhile isdigit = l.dropWhile isdigit ++ '\x00' :: rest
  | [] => rfl
  | c :: l => by
    by_cases hc : isdigit c = true
    · simp only [List.cons_append, List.dropWhile_cons, hc, if_true]
      exact dropWhile_isdigit_append_nul rest l
    · simp [List.dropWhile_cons, hc]

theorem mangledNormal_append_nul (rest : List Char) :
    ∀ l : List Char, '\x00' ∉ l → mangledNormal (l ++ '\x00' :: rest) = mangledNormal l
  | [], _ => by rw [mangledNormal_eq ([] ++ _), mangledNormal_eq []]; rfl
  | c :: l, h => by
    have hc : c ≠ '\x00' := fun e => h (e ▸ List.mem_cons_self c l)
    have hl : '\x00' ∉ l := fun e => h (List.mem_cons_of_mem c e)
    have hrun : '\x00' ∉ l.dropWhile isdigit := fun e => hl ((List.dropWhile_suffix isdigit).subset e)
    rw [mangledNormal_eq, mangledNormal_eq (c :: l)]
    simp only [List.cons_append, peek_cons, List.drop_one, List.tail_cons, peek_append_nul,
      dropWhile_isdigit_append_nul, mangledNormal_append_nul rest l hl,
      mangledNormal_append_nul rest _ hrun]
termination_by l => l.length
decreasing_by
  all_goals simp_wf
  exact Nat.lt_succ_of_le (List.dropWhile_suffix isdigit).length_le

/-! ## 主定理 -/

/-- `xsplice_mangled_strcmp(a, b)` が 0 を返すのは、`a` と `b` の正規形が等しいときに限る。したがって 0 を返すという
関係は同値関係であり、ループは最初の NUL で止まる（NUL の後ろに何が続いても答えは変わらない）。 -/
theorem mangled_strcmp_normal_form :
    (∀ a b : String, xspliceMangledStrcmp a b = 0 ↔ mangledNormal a.toList = mangledNormal b.toList) ∧
    Equivalence (fun a b : String => xspliceMangledStrcmp a b = 0) ∧
    ∀ a b a' b' : String, '\x00' ∉ a.toList → '\x00' ∉ b.toList →
      xspliceMangledStrcmp (a ++ "\x00" ++ a') (b ++ "\x00" ++ b') = xspliceMangledStrcmp a b := by
  have hiff : ∀ a b : String, xspliceMangledStrcmp a b = 0 ↔ mangledNormal a.toList = mangledNormal b.toList :=
    fun a b => mangledStrcmpLoop_eq_zero_iff _ _ _ (by simp)
  refine ⟨hiff, ⟨fun a => (hiff a a).mpr rfl, fun h => ?_, fun h1 h2 => ?_⟩, fun a b a' b' ha hb => ?_⟩
  · exact (hiff _ _).mpr ((hiff _ _).mp h).symm
  · exact (hiff _ _).mpr (((hiff _ _).mp h1).trans ((hiff _ _).mp h2))
  · have hn : ∀ (s t : String), '\x00' ∉ s.toList →
        mangledNormal (s ++ "\x00" ++ t).toList = mangledNormal s.toList := fun s t hs => by
      simpa using mangledNormal_append_nul t.toList s.toList hs
    have h1 := mangledStrcmpLoop_le_one ((a ++ "\x00" ++ a').length + 1) (a ++ "\x00" ++ a').toList
      (b ++ "\x00" ++ b').toList
    have h2 := mangledStrcmpLoop_le_one (a.length + 1) a.toList b.toList
    have := (hiff (a ++ "\x00" ++ a') (b ++ "\x00" ++ b')).trans (hn a a' ha ▸ hn b b' hb ▸ (hiff a b).symm)
    unfold xspliceMangledStrcmp at this ⊢
    omega

end XspliceDiff

import XspliceDiff.Lemmas.Pipeline

/-!
# 出力のセクションはパッチにできる

`main` が出力を書くのは、`xsplice_verify_patchability` が patched のどのセクションにも誤りを数えなかったとき
だけである。その後の段は、確認が読むもの（状態、`include`、グループに属するか、型、名前）を、確認の時に
あったセクションについて変えない。だから、patched のどのセクションも出力のモデルで §4.4 の条件を満たし、
出力にあるのは含めたものに限る。
-/

namespace XspliceDiff

variable {n : Nat} {m m' m'' : Mem}

/-- `xsplice_verify_patchability` がセクションについて読むもの。 -/
def verifyView (sec : Section) : Status × Bool × Bool × Nat × String :=
  (sec.status, sec.included, sec.grouped, sec.sh.shType, sec.name)

/-- 確認の時にあった `n` 個のセクションについて、`m` から `m'` まで、確認が読むものは変わらない。 -/
def FlagsKept (n : Nat) (m m' : Mem) : Prop := ∀ s < n, verifyView (m'.sec s) = verifyView (m.sec s)

namespace FlagsKept

theorem refl (n : Nat) (m : Mem) : FlagsKept n m m := fun _ _ => rfl

theorem trans (h1 : FlagsKept n m m') (h2 : FlagsKept n m' m'') : FlagsKept n m m'' :=
  fun s hs => (h2 s hs).trans (h1 s hs)

theorem of_sec_eq (h : m'.sec = m.sec) : FlagsKept n m m' := fun s _ => by rw [h]

theorem modSec {f : Section → Section} (p : SecRef) (hf : ∀ x, verifyView (f x) = verifyView x) :
    FlagsKept n m (m.modSec p f) := fun s _ => by
  rw [Mem.modSec_sec]
  split_ifs with h
  · subst h; exact hf _
  · rfl

theorem foldl {β : Type} {f : Mem → β → Mem} (hf : ∀ m x, FlagsKept n m (f m x)) :
    ∀ (l : List β) (m : Mem), FlagsKept n m (l.foldl f m)
  | [], m => refl n m
  | x :: l, m => (hf m x).trans (foldl hf l (f m x))

end FlagsKept

/-! ## 確認の後の段 -/

end XspliceDiff

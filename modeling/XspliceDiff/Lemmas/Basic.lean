import XspliceDiff.Main

/-!
# `Except` とメモリの基本の補題
-/

namespace XspliceDiff

/-! ## `Except` -/

section ExceptLemmas

variable {ε α β : Type}

@[simp] theorem pure_eq_ok (a : α) : (pure a : Except ε α) = .ok a := rfl

@[simp] theorem throw_eq_error (e : ε) : (throw e : Except ε α) = .error e := rfl

@[simp] theorem ok_bind (a : α) (f : α → Except ε β) : (Except.ok a >>= f) = f a := rfl

@[simp] theorem error_bind (e : ε) (f : α → Except ε β) : (Except.error e >>= f) = .error e := rfl

theorem bind_eq_ok {x : Except ε α} {f : α → Except ε β} {b : β} :
    x >>= f = .ok b ↔ ∃ a, x = .ok a ∧ f a = .ok b := by
  cases x <;> simp

end ExceptLemmas

/-! ## 印を付けるだけの書き換え -/

namespace Mem

@[simp] theorem includeSym_sec (m : Mem) (p : SymRef) : (m.includeSym p).sec = m.sec := rfl

@[simp] theorem includeSym_sym_type (m : Mem) (p q : SymRef) : ((m.includeSym p).sym q).type = (m.sym q).type := by
  by_cases h : q = p <;> simp [includeSym, h]

@[simp] theorem includeSym_sym_sec (m : Mem) (p q : SymRef) : ((m.includeSym p).sym q).sec = (m.sym q).sec := by
  by_cases h : q = p <;> simp [includeSym, h]

theorem includeSym_sym_included (m : Mem) (p q : SymRef) :
    ((m.includeSym p).sym q).included = (q == p || (m.sym q).included) := by
  by_cases h : q = p <;> simp [includeSym, h]

theorem modSym_symSec (m : Mem) (p : SymRef) {f : Symbol → Symbol} (hf : ∀ y, (f y).sec = y.sec) (q : SymRef) :
    ((m.modSym p f).sym q).sec = (m.sym q).sec := by
  by_cases hq : q = p <;> simp [modSym_sym, hq, hf]

@[simp] theorem includeSec_sym (m : Mem) (p : SecRef) : (m.includeSec p).sym = m.sym := rfl

theorem includeSec_sec_included (m : Mem) (p q : SecRef) :
    ((m.includeSec p).sec q).included = (q == p || (m.sec q).included) := by
  by_cases h : q = p <;> simp [includeSec, h]

@[simp] theorem includeSec_sec_relas (m : Mem) (p q : SecRef) :
    ((m.includeSec p).sec q).relas = (m.sec q).relas := by
  by_cases h : q = p <;> simp [includeSec, h]

theorem foldl_sec_eq {β : Type} {f : Mem → β → Mem} (hf : ∀ m x, (f m x).sec = m.sec) :
    ∀ (l : List β) (m : Mem), (l.foldl f m).sec = m.sec
  | [], _ => rfl
  | x :: l, m => (foldl_sec_eq hf l (f m x)).trans (hf m x)

theorem foldl_sym_eq {β : Type} {f : Mem → β → Mem} (hf : ∀ m x, (f m x).sym = m.sym) :
    ∀ (l : List β) (m : Mem), (l.foldl f m).sym = m.sym
  | [], _ => rfl
  | x :: l, m => (foldl_sym_eq hf l (f m x)).trans (hf m x)

end Mem

/-! ## 印を増やすだけの書き換え -/

/-- `include` の印を消したセクション。 -/
def Section.unmarked (x : Section) : Section := { x with included := false }

/-- `include` の印を消したシンボル。 -/
def Symbol.unmarked (y : Symbol) : Symbol := { y with included := false }

/-- `m'` は `m` の `include` の印を増やしただけで、他は変わらない。 -/
structure Mem.Grows (m m' : Mem) : Prop where
  sec : ∀ s, (m'.sec s).unmarked = (m.sec s).unmarked
  sym : ∀ y, (m'.sym y).unmarked = (m.sym y).unmarked
  secMono : ∀ s, (m.sec s).included = true → (m'.sec s).included = true
  symMono : ∀ y, (m.sym y).included = true → (m'.sym y).included = true

namespace Mem.Grows

variable {m m' m'' : Mem}

theorem refl (m : Mem) : m.Grows m := ⟨fun _ => rfl, fun _ => rfl, fun _ h => h, fun _ h => h⟩

theorem trans (h1 : m.Grows m') (h2 : m'.Grows m'') : m.Grows m'' :=
  ⟨fun s => (h2.sec s).trans (h1.sec s), fun y => (h2.sym y).trans (h1.sym y),
   fun s h => h2.secMono s (h1.secMono s h), fun y h => h2.symMono y (h1.symMono y h)⟩

theorem includeSec (m : Mem) (p : SecRef) : m.Grows (m.includeSec p) := by
  refine ⟨fun s => ?_, fun _ => rfl, fun s h => ?_, fun _ h => h⟩ <;>
    by_cases hs : s = p <;> simp_all [Mem.includeSec, Section.unmarked]

theorem includeSym (m : Mem) (p : SymRef) : m.Grows (m.includeSym p) := by
  refine ⟨fun _ => rfl, fun y => ?_, fun _ h => h, fun y h => ?_⟩ <;>
    by_cases hy : y = p <;> simp_all [Mem.includeSym, Symbol.unmarked]

theorem rela (h : m.Grows m') (s : SecRef) : (m'.sec s).rela = (m.sec s).rela := by
  have := congrArg Section.rela (h.sec s); exact this

theorem secsym (h : m.Grows m') (s : SecRef) : (m'.sec s).secsym = (m.sec s).secsym := by
  have := congrArg Section.secsym (h.sec s); exact this

theorem relas (h : m.Grows m') (s : SecRef) : (m'.sec s).relas = (m.sec s).relas := by
  have := congrArg Section.relas (h.sec s); exact this

theorem symSec (h : m.Grows m') (y : SymRef) : (m'.sym y).sec = (m.sym y).sec := by
  have := congrArg Symbol.sec (h.sym y); exact this

theorem symType (h : m.Grows m') (y : SymRef) : (m'.sym y).type = (m.sym y).type := by
  have := congrArg Symbol.type (h.sym y); exact this

theorem symStatus (h : m.Grows m') (y : SymRef) : (m'.sym y).status = (m.sym y).status := by
  have := congrArg Symbol.status (h.sym y); exact this

theorem foldl {β : Type} {f : Mem → β → Mem} (hf : ∀ (m : Mem) x, m.Grows (f m x)) :
    ∀ (l : List β) (m : Mem), m.Grows (l.foldl f m)
  | [], m => refl m
  | x :: l, m => (hf m x).trans (foldl hf l (f m x))

end Mem.Grows

end XspliceDiff

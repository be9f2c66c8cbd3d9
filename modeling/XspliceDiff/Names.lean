import XspliceDiff.Elf

/-!
# 名前の比較

C の文字列は NUL で終わる文字の並びで、ここでは NUL の前までの文字の並び（`String`）で表す。
`xsplice_mangled_strcmp`、`is_special_static`、`is_constant_label` と、それらが使う `string.h` の関数。
-/

namespace XspliceDiff

/-! ## `string.h` と `ctype.h` -/

/-- `isdigit`。 -/
def isdigit (c : Char) : Bool := c.isDigit

/-- 文字の並びの先頭の文字。並びの終わりでは NUL を読む。 -/
def peek : List Char → Char
  | [] => '\x00'
  | c :: _ => c

/-- `t` が `s` のどこかに現れる。 -/
def hasInfix (t : List Char) : List Char → Bool
  | [] => t.isEmpty
  | c :: s => t.isPrefixOf (c :: s) || hasInfix t s

/-- `strstr(s, t) != NULL`。 -/
def strstr (s t : String) : Bool := hasInfix t.toList s.toList

/-- `strncmp(s, pre, strlen(pre)) == 0`：`s` が `pre` で始まる。 -/
def hasPrefix (s pre : String) : Bool := pre.toList.isPrefixOf s.toList

/-- `strchr(s, c) != NULL`。 -/
def strchr (s : String) (c : Char) : Bool := s.toList.contains c

/-! ## `xsplice_mangled_strcmp` -/

/-- `xsplice_mangled_strcmp` の `while` ループ。どの周回も `s1` を一文字以上進めるので、
燃料は `s1` の長さより一つ多ければ足りる。 -/
def mangledStrcmpLoop : Nat → List Char → List Char → Nat
  | 0, _, _ => 1
  | fuel + 1, s1, s2 =>
    if peek s1 = peek s2 then
      if peek s1 = '\x00' then 0
      else if peek s1 = '.' ∧ isdigit (peek (s1.drop 1)) = true then
        if isdigit (peek (s2.drop 1)) = false then 1
        else mangledStrcmpLoop fuel ((s1.drop 1).dropWhile isdigit) ((s2.drop 1).dropWhile isdigit)
      else mangledStrcmpLoop fuel (s1.drop 1) (s2.drop 1)
    else 1

/-- `xsplice_mangled_strcmp`：`.` と数字の並びを飛ばして比べる。等しければ 0、そうでなければ 1。 -/
def xspliceMangledStrcmp (s1 s2 : String) : Nat :=
  mangledStrcmpLoop (s1.length + 1) s1.toList s2.toList

example : xspliceMangledStrcmp "foo.isra.2" "foo.isra.13" = 0 := by decide
example : xspliceMangledStrcmp "counter.7" "counter" = 1 := by decide

/-! ## 特別な名前 -/

/-- `is_special_static` の `prefixes`。 -/
def specialStaticPrefixes : List String := ["__key.", "__warned.", "descriptor.", "__func__.", "_rs."]

/-- `is_special_static`。`sym` は NULL かもしれない。セクションのシンボルでは、`__verbose` か、
まとめられたシンボルで判断する（ローダはセクションのシンボルに必ずそのセクションを置く）。 -/
def isSpecialStatic (m : Mem) : Option SymRef → Bool
  | none => false
  | some p =>
    let y := m.sym p
    if y.type = STT_SECTION then
      if y.name = "__verbose" then true
      else
        match (m.sec (y.sec.getD 0)).sym with
        | none => false
        | some q => isSpecialObject (m.sym q)
    else isSpecialObject y
where
  /-- 型と結合と名前の接頭辞の判定。 -/
  isSpecialObject (y : Symbol) : Bool :=
    y.type == STT_OBJECT && y.bind == STB_LOCAL && specialStaticPrefixes.any (hasPrefix y.name)

/-- `is_constant_label`：局所的な `.LC` に一つ以上の数字が続く名前。 -/
def isConstantLabel (y : Symbol) : Bool :=
  y.bind == STB_LOCAL && hasPrefix y.name ".LC" &&
    match y.name.toList.drop 3 with
    | [] => false
    | c :: cs => (c :: cs).all isdigit

end XspliceDiff

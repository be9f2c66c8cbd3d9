import XspliceDiff.Names

/-!
# 対応づけ（§4.1）

base と patched のセクションとシンボルに `twin` を置くまでの段階：ヘッダの比較、グループの印、
セクションのシンボルの置き換え、名前を変えられた関数の改名、同じ名前の要素の対応づけ、
静的な局所変数の対応づけ。
-/

namespace XspliceDiff

/-! ## ヘッダとグループ -/

/-- `xsplice_compare_elf_headers`。`Ehdr` は比べるフィールドだけを持つ。 -/
def xspliceCompareElfHeaders (eh1 eh2 : Ehdr) : Except Abort Unit :=
  if eh1 = eh2 then pure () else throw (.diffFatal "ELF headers differ")

/-- `xsplice_check_program_headers`。 -/
def xspliceCheckProgramHeaders (kelf : Elf) : Except Abort Unit :=
  if kelf.phnum ≠ 0 then throw (.diffFatal "ELF contains program header") else pure ()

/-- グループのセクションの中身を 4 バイトの語（リトルエンディアン）として読む。
最後の語がバッファの終わりをまたぐなら、その語を読むことは未定義動作である。 -/
def groupWords : List UInt8 → Except Abort (List Nat)
  | [] => pure []
  | b0 :: b1 :: b2 :: b3 :: rest => do
    let ws ← groupWords rest
    pure ((b0.toNat + 256 * b1.toNat + 65536 * b2.toNat + 16777216 * b3.toNat) :: ws)
  | _ => throw (.undefined "read past the end of a group section")

/-- `xsplice_mark_grouped_sections`：`SHT_GROUP` のセクションの、最初の語（フラグ）の後の各語が指す
セクションに `grouped` を置く。 -/
def xspliceMarkGroupedSections (m : Mem) (kelf : Elf) : Except Abort Mem :=
  kelf.sections.foldlM (fun m g => do
    let groupsec := m.sec g
    if groupsec.sh.shType ≠ SHT_GROUP then return m
    let ws ← groupWords ((groupsec.data.dBuf.take groupsec.data.dSize).drop 4)
    ws.foldlM (fun m w => do
      let some s := findSectionByIndex m kelf.sections w | throw (.error "group section not found")
      pure (m.modSec s fun x => { x with grouped := true })) m) m

/-! ## セクションのシンボルの置き換え -/

/-- `rela_insn` が求める `insn.next_byte - d_buf`：バイト列の中の位置 `offset` を含む命令の、次の命令の位置。
命令のデコーダは核の外にある（§1）ので、パラメータとする。`none` はデコードできないことを表す。 -/
abbrev InsnDecoder := List UInt8 → Nat → Option Nat

/-- `int` への変換：64 ビットの符号なしの値の下位 32 ビットを、2 の補数で読む。 -/
def toInt32 (x : Nat) : Int :=
  if x % 2 ^ 32 < 2 ^ 31 then (x % 2 ^ 32 : Nat) else (x % 2 ^ 32 : Nat) - 2 ^ 32

/-- `xsplice_replace_sections_syms` の内側のループの一周：セクション `sec` のリロケーション `rela` が
セクションのシンボルを指すなら、まとめられたシンボルか、範囲が参照する位置を含むシンボルに置き換える。 -/
def replaceSectionSym (decode : InsnDecoder) (m : Mem) (kelf : Elf) (sec : Section) (rela : Rela) :
    Except Abort Rela := do
  let rsym := m.sym rela.sym
  if rsym.type ≠ STT_SECTION then return rela
  if let some s := rsym.sec then
    if let some b := (m.sec s).sym then return { rela with sym := b }
  let addOff : Option Int ←
    if rela.type = R_X86_64_PC32 then
      match decode (m.base sec).data.dBuf rela.offset with
      | some next => pure (some ((next : Int) - rela.offset))
      | none => throw (.error ("can't decode instruction in section " ++ sec.name))
    else if rela.type = R_X86_64_64 ∨ rela.type = R_X86_64_32S then pure (some 0)
    else pure none
  let some addOff := addOff | return rela
  let inRange (q : SymRef) : Bool :=
    let y := m.sym q
    y.type != STT_SECTION && y.sec == rsym.sec &&
      decide (toInt32 y.sym.stValue ≤ rela.addend + addOff) &&
      decide (rela.addend + addOff < toInt32 (y.sym.stValue + y.sym.stSize))
  match kelf.symbols.find? inRange with
  | some q => pure { rela with sym := q, addend := rela.addend - toInt32 (m.sym q).sym.stValue }
  | none => pure rela

/-- `xsplice_replace_sections_syms`：デバッグのものでない各リロケーションのセクションの、各リロケーションに
`replaceSectionSym` を施す。この段階はリロケーションだけを書き換える。 -/
def xspliceReplaceSectionsSyms (decode : InsnDecoder) (m : Mem) (kelf : Elf) : Except Abort Mem :=
  kelf.sections.foldlM (fun m p => do
    let sec := m.sec p
    if !isRelaSection sec || isDebugSection m sec then return m
    let relas ← sec.relas.mapM (replaceSectionSym decode m kelf sec)
    pure (m.modSec p fun s => { s with relas := relas })) m

/-! ## 名前を変えられた関数の改名 -/

/-- `sprintf(name, ".rodata.%s", s)`：`char name[256]` に収まらなければ未定義動作である。 -/
def rodataName (s : String) : Except Abort String :=
  let name := ".rodata." ++ s
  if name.length < 256 then pure name else throw (.undefined "sprintf overflows name[256]")

/-- セクション `p` にリロケーションのセクションがあれば、その名前を `q` のリロケーションのセクションの名前にする
（`q` のリロケーションのセクションをたどる）。 -/
def renameRela (m : Mem) (p q : SecRef) (what : String) : Except Abort Mem :=
  match (m.sec p).rela with
  | none => pure m
  | some r => do
    let br ← deref (m.sec q).rela what
    pure (m.modSec r fun x => { x with name := (m.sec br).name })

/-- `xsplice_rename_mangled_functions` の一周：patched のシンボル `p`。 -/
def renameMangledFunction (base patched : Elf) (m : Mem) (p : SymRef) : Except Abort Mem := do
  let sym := m.sym p
  if sym.type ≠ STT_FUNC then return m
  if !strstr sym.name ".isra." && !strstr sym.name ".constprop." && !strstr sym.name ".part." then
    return m
  let some bp := base.symbols.find? (fun q => xspliceMangledStrcmp (m.sym q).name sym.name = 0)
    | return m
  let basesym := m.sym bp
  if sym.name = basesym.name then return m
  let origname := sym.name
  let m := m.modSym p fun y => { y with name := basesym.name }
  let s ← deref sym.sec "sym->sec"
  if (m.sec s).sym ≠ some p then return m
  let bs ← deref basesym.sec "basesym->sec"
  let m := m.modSec s fun x => { x with name := (m.sec bs).name }
  let m ← renameRela m s bs "basesym->sec->rela"
  let name ← rodataName origname
  let some rs := findSectionByName m patched.sections name | return m
  let name ← rodataName basesym.name
  let some brs := findSectionByName m base.sections name | return m
  let m := m.modSec rs fun x => { x with name := (m.sec brs).name }
  let ss ← deref (m.sec rs).secsym "sec->secsym"
  let m := m.modSym ss fun y => { y with name := (m.sec rs).name }
  renameRela m rs brs "basesec->rela"

/-- `xsplice_rename_mangled_functions`：名前に `.isra.`、`.constprop.`、`.part.` を含む patched の関数を、
名前が `xsplice_mangled_strcmp` で等しい最初の base のシンボルの名前に変える。 -/
def xspliceRenameMangledFunctions (m : Mem) (base patched : Elf) : Except Abort Mem :=
  patched.symbols.foldlM (renameMangledFunction base patched) m

/-! ## 同じ名前の要素の対応づけ -/

/-- `xsplice_correlate_sections` の内側のループの条件。 -/
def sectionsMatch (m : Mem) (sec1 sec2 : Section) : Bool :=
  sec1.name == sec2.name &&
    !isSpecialStatic m (if isRelaSection sec1 then (m.base sec1).secsym else sec1.secsym) &&
    (sec1.sh.shType != SHT_GROUP ||
      (sec1.data.dSize == sec2.data.dSize && memEq sec1.data.dBuf sec2.data.dBuf sec1.data.dSize))

/-- 二つのセクションを互いの `twin` にして、状態を `SAME` にする。 -/
def twinSections (m : Mem) (p1 p2 : SecRef) : Mem :=
  (m.modSec p1 fun s => { s with twin := some p2, status := .same }).modSec p2
    fun s => { s with twin := some p1, status := .same }

/-- `xsplice_correlate_sections` の外側のループの一周：`p1` を、条件を満たす `l2` の最初のセクションと対にする。
相手がすでに対を持つかは確かめない。 -/
def correlateSection (l2 : List SecRef) (m : Mem) (p1 : SecRef) : Mem :=
  match l2.find? (fun p2 => sectionsMatch m (m.sec p1) (m.sec p2)) with
  | some p2 => twinSections m p1 p2
  | none => m

/-- `xsplice_correlate_sections`：`l1` の各セクションを、条件を満たす `l2` の最初のセクションと対にする。 -/
def xspliceCorrelateSections (m : Mem) (l1 l2 : List SecRef) : Mem :=
  l1.foldl (correlateSection l2) m

/-- `xsplice_correlate_symbols` の内側のループの条件。 -/
def symbolsMatch (m : Mem) (p1 p2 : SymRef) : Bool :=
  let sym1 := m.sym p1
  let sym2 := m.sym p2
  sym1.name == sym2.name && sym1.type == sym2.type && !isSpecialStatic m (some p1) &&
    !isConstantLabel sym1 &&
    match sym1.sec with
    | some s => (m.sec s).sh.shType != SHT_GROUP || (m.sec s).twin == sym2.sec
    | none => true

/-- 二つのシンボルを互いの `twin` にして、状態を `SAME` にする。 -/
def twinSymbols (m : Mem) (p1 p2 : SymRef) : Mem :=
  (m.modSym p1 fun y => { y with twin := some p2, status := .same }).modSym p2
    fun y => { y with twin := some p1, status := .same }

/-- `xsplice_correlate_symbols` の外側のループの一周。 -/
def correlateSymbol (l2 : List SymRef) (m : Mem) (p1 : SymRef) : Mem :=
  match l2.find? (fun p2 => symbolsMatch m p1 p2) with
  | some p2 => twinSymbols m p1 p2
  | none => m

/-- `xsplice_correlate_symbols`。 -/
def xspliceCorrelateSymbols (m : Mem) (l1 l2 : List SymRef) : Mem :=
  l1.foldl (correlateSymbol l2) m

/-- `xsplice_correlate_elfs`：`kelf1` は base、`kelf2` は patched である。 -/
def xspliceCorrelateElfs (m : Mem) (kelf1 kelf2 : Elf) : Mem :=
  let m := xspliceCorrelateSections m kelf1.sections kelf2.sections
  xspliceCorrelateSymbols m kelf1.symbols kelf2.symbols

/-! ## 静的な局所変数の対応づけ -/

/-- `xsplice_section_function_name`。 -/
def xspliceSectionFunctionName (m : Mem) (sec : Section) : String :=
  let sec := if isRelaSection sec then m.base sec else sec
  match sec.sym with
  | some y => (m.sym y).name
  | none => sec.name

/-- `xsplice_find_static_twin`：patched のリロケーションのセクション `sp` が参照する静的な局所変数 `p` に対応する
base の変数を、`sp` の `twin` のリロケーションの参照先から探す。 -/
def xspliceFindStaticTwin (m : Mem) (sp : SecRef) (p : SymRef) : Except Abort (Option SymRef) := do
  let sec := m.sec sp
  let some tw := sec.twin | return none
  let name := (m.sym p).name
  let orphan (rela : Rela) : Bool :=
    rela.sym != p && (m.sym rela.sym).twin.isNone && xspliceMangledStrcmp (m.sym rela.sym).name name == 0
  if sec.relas.any orphan then
    throw (.error ("found another static local variable matching " ++ name ++ " in patched " ++
      xspliceSectionFunctionName m sec))
  (m.sec tw).relas.foldlM (fun basesym rela => do
    if (m.sym rela.sym).twin.isSome then return basesym
    if xspliceMangledStrcmp (m.sym rela.sym).name name ≠ 0 then return basesym
    if let some b := basesym then
      if b ≠ rela.sym then
        throw (.error ("found two static local variables matching " ++ name ++ " in orig " ++
          xspliceSectionFunctionName m sec))
    pure (some rela.sym)) none

/-- `xsplice_correlate_static_local_variables` の内側の探索の一周：リロケーションのセクション `tp` が `p` を参照するなら、
`sec` を `tp` にして、`xsplice_find_static_twin` の答えを `basesym` に合わせる。 -/
def staticTwinStep (m : Mem) (p : SymRef) (acc : Option SecRef × Option SymRef) (tp : SecRef) :
    Except Abort (Option SecRef × Option SymRef) := do
  let tmpsec := m.sec tp
  if !isRelaSection tmpsec || !isTextSection (m.base tmpsec) || isDebugSection m tmpsec then
    return acc
  if !tmpsec.relas.any (fun rela => rela.sym == p) then return acc
  let tmpsym ← xspliceFindStaticTwin m tp p
  if let (some b, some t) := (acc.2, tmpsym) then
    if b ≠ t then
      throw (.error ("found two twins for static local variable " ++ (m.sym p).name ++ ": " ++
        (m.sym b).name ++ " and " ++ (m.sym t).name))
  pure (some tp, acc.2 <|> tmpsym)

/-- `xsplice_correlate_static_local_variables` の一周：patched のシンボル `p`。 -/
def correlateStaticLocal (patched : Elf) (m : Mem) (p : SymRef) : Except Abort Mem := do
  let sym := m.sym p
  if sym.type ≠ STT_OBJECT || sym.bind ≠ STB_LOCAL || sym.twin.isSome then return m
  if isSpecialStatic m (some p) then return m
  if !strchr sym.name '.' then return m
  let (sec, basesym) ← patched.sections.foldlM (staticTwinStep m p) (none, none)
  let some _ := sec | throw (.error ("static local variable " ++ sym.name ++ " not used"))
  let some bp := basesym | return m
  let s ← deref sym.sec "sym->sec"
  let bs ← deref (m.sym bp).sec "basesym->sec"
  let bundled := (m.sec s).sym == some p
  let basebundled := (m.sec bs).sym == some bp
  if bundled ≠ basebundled then throw (.error ("bundle mismatch for symbol " ++ sym.name))
  if !bundled && (m.sec s).twin ≠ some bs then
    throw (.error ("sections " ++ (m.sec s).name ++ " and " ++ (m.sec bs).name ++ " aren't correlated"))
  let m := m.modSym p fun y => { y with name := (m.sym bp).name }
  let m := twinSymbols m p bp
  if bundled then
    pure ((m.modSec s fun x => { x with twin := some bs }).modSec bs fun x => { x with twin := some s })
  else pure m

/-- `xsplice_correlate_static_local_variables`。 -/
def xspliceCorrelateStaticLocalVariables (m : Mem) (patched : Elf) : Except Abort Mem :=
  patched.symbols.foldlM (correlateStaticLocal patched) m

end XspliceDiff

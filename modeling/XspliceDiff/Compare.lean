import XspliceDiff.Correlate

/-!
# 比較（§4.2）と無視の指示（§4.3）

対応づけたセクションとシンボルに `SAME`、`CHANGED`、`NEW` を付ける段階と、`.xsplice.ignore.*` と
定数のラベルによる上書き。
-/

namespace XspliceDiff

/-! ## リロケーションの等しさ -/

/-- `rela_equal`。 -/
def relaEqual (m : Mem) (rela1 rela2 : Rela) : Bool :=
  if rela1.type ≠ rela2.type ∨ rela1.offset ≠ rela2.offset then false
  else match rela1.string with
    | some s1 => rela2.string == some s1
    | none =>
      if rela1.addend ≠ rela2.addend then false
      else if isConstantLabel (m.sym rela1.sym) && isConstantLabel (m.sym rela2.sym) then true
      else if isSpecialStatic m (some rela1.sym) then
        xspliceMangledStrcmp (m.sym rela1.sym).name (m.sym rela2.sym).name == 0
      else (m.sym rela1.sym).name == (m.sym rela2.sym).name

/-- `xsplice_compare_correlated_rela_section` の歩み：`relas1` を先頭から、`relas2` と一つずつ並べて比べる。
`relas2` が先に尽きると、`rela2` はリストの頭を指し、それを読むことは未定義動作である。 -/
def compareRelaWalk (m : Mem) : List Rela → List Rela → Except Abort Status
  | [], _ => pure .same
  | _ :: _, [] => throw (.undefined "rela2 walks past the end of the twin's relocation list")
  | rela1 :: relas1, rela2 :: relas2 =>
    if relaEqual m rela1 rela2 then compareRelaWalk m relas1 relas2 else pure .changed

/-- `xsplice_compare_correlated_rela_section`。 -/
def xspliceCompareCorrelatedRelaSection (m : Mem) (sec twin : Section) : Except Abort Status :=
  compareRelaWalk m sec.relas twin.relas

/-- `xsplice_compare_correlated_nonrela_section`。 -/
def xspliceCompareCorrelatedNonrelaSection (sec1 sec2 : Section) : Status :=
  if sec1.sh.shType ≠ SHT_NOBITS ∧ !memEq sec1.data.dBuf sec2.data.dBuf sec1.data.dSize then .changed
  else .same

/-- `xsplice_compare_correlated_section`：セクション `sec` と、その `twin` の `sec2` を比べた状態。 -/
def xspliceCompareCorrelatedSection (m : Mem) (sec sec2 : Section) : Except Abort Status := do
  if sec.sh.shType ≠ sec2.sh.shType ∨ sec.sh.shFlags ≠ sec2.sh.shFlags ∨ sec.sh.shAddr ≠ sec2.sh.shAddr ∨
      sec.sh.shAddralign ≠ sec2.sh.shAddralign ∨ sec.sh.shEntsize ≠ sec2.sh.shEntsize then
    throw (.diffFatal (sec.name ++ " section header details differ"))
  if sec.sh.shSize ≠ sec2.sh.shSize ∨ sec.data.dSize ≠ sec2.data.dSize then return .changed
  if isRelaSection sec then xspliceCompareCorrelatedRelaSection m sec sec2
  else pure (xspliceCompareCorrelatedNonrelaSection sec sec2)

/-! ## セクションとシンボルの比較 -/

/-- `xsplice_compare_sections` の最初のループの一周。 -/
def compareSection (m : Mem) (p : SecRef) : Except Abort Mem := do
  let sec := m.sec p
  let status ← match sec.twin with
    | some t => xspliceCompareCorrelatedSection m sec (m.sec t)
    | none => pure .new
  pure (m.modSec p fun s => { s with status := status })

/-- `xsplice_compare_sections` の二つ目のループの一周：セクションの状態を、まとめられたシンボルに写す。
リロケーションのセクションでは `base` の、そうでなければそのセクションの、まとめられたシンボルに写す。
すでに `CHANGED` のシンボルは変えない。 -/
def syncSymbolStatus (m : Mem) (p : SecRef) : Mem :=
  let sec := m.sec p
  let owner := if isRelaSection sec then m.base sec else sec
  match owner.sym with
  | some y => if (m.sym y).status ≠ .changed then m.modSym y fun z => { z with status := sec.status } else m
  | none => m

/-- `xsplice_compare_sections`。 -/
def xspliceCompareSections (m : Mem) (seclist : List SecRef) : Except Abort Mem := do
  let m ← seclist.foldlM compareSection m
  pure (seclist.foldl syncSymbolStatus m)

/-- 対応するシンボル `p` のセクション `s1` と、その `twin` の `q` のセクション `s2` が対応していないとき：`s2` の `twin` が
無視するセクションなら `p` は `CHANGED`、そうでなければ `DIFF_FATAL`。 -/
def changedSections (m : Mem) (p q : SymRef) (s1 s2 : SecRef) : Except Abort Mem :=
  let fatal : Abort := .diffFatal ("symbol changed sections: " ++ (m.sym p).name ++ ", " ++
    (m.sym q).name ++ ", " ++ (m.sec s1).name ++ ", " ++ (m.sec s2).name)
  match (m.sec s2).twin with
  | some t => if (m.sec t).ignore then pure (m.modSym p fun y => { y with status := .changed }) else throw fatal
  | none => throw fatal

/-- `xsplice_compare_correlated_symbol` の中ほど：シンボル `p` と `q` がどちらもセクションを持ち、セクションが
対応していなければ `changedSections`。 -/
def checkSymbolSections (m : Mem) (p q : SymRef) : Except Abort Mem :=
  match (m.sym p).sec, (m.sym q).sec with
  | some s1, some s2 => if (m.sec s1).twin ≠ some s2 then changedSections m p q s1 s2 else pure m
  | _, _ => pure m

/-- `xsplice_compare_correlated_symbol`：シンボル `p` と、その `twin` の `q`。 -/
def xspliceCompareCorrelatedSymbol (m : Mem) (p q : SymRef) : Except Abort Mem :=
  let sym1 := m.sym p
  let sym2 := m.sym q
  if sym1.sym.stInfo ≠ sym2.sym.stInfo ∨ sym1.sym.stOther ≠ sym2.sym.stOther ∨
      (sym1.sec.isSome ∧ sym2.sec.isNone) ∨ (sym2.sec.isSome ∧ sym1.sec.isNone) then
    throw (.diffFatal ("symbol info mismatch: " ++ sym1.name))
  else do
    let m ← checkSymbolSections m p q
    if sym1.type = STT_OBJECT ∧ sym1.sym.stSize ≠ sym2.sym.stSize then
      throw (.diffFatal ("object size mismatch: " ++ sym1.name))
    else if sym1.sym.stShndx = SHN_UNDEF ∨ sym1.sym.stShndx = SHN_ABS then
      pure (m.modSym p fun y => { y with status := .same })
    else pure m

/-- `xsplice_compare_symbols` のループの一周：対応のあるシンボルは比べ、対応のないシンボルは `NEW` にする。 -/
def compareSymbol (m : Mem) (p : SymRef) : Except Abort Mem :=
  match (m.sym p).twin with
  | some q => xspliceCompareCorrelatedSymbol m p q
  | none => pure (m.modSym p fun y => { y with status := .new })

/-- `xsplice_compare_symbols`。 -/
def xspliceCompareSymbols (m : Mem) (symlist : List SymRef) : Except Abort Mem :=
  symlist.foldlM compareSymbol m

/-- `xsplice_compare_correlated_elements`。 -/
def xspliceCompareCorrelatedElements (m : Mem) (kelf : Elf) : Except Abort Mem := do
  let m ← xspliceCompareSections m kelf.sections
  xspliceCompareSymbols m kelf.symbols

/-! ## 無視の指示と定数のラベル -/

/-- 関数 `p` と、そのセクション、セクションのシンボル、リロケーションのセクションを `SAME` にする
（`xsplice_mark_ignored_functions_same` の一周の後半）。 -/
def markFunctionSame (m : Mem) (p : SymRef) (s : SecRef) : Mem :=
  let m := (m.modSym p fun y => { y with status := .same }).modSec s fun x => { x with status := .same }
  let m := match (m.sec s).secsym with
    | some y => m.modSym y fun z => { z with status := .same }
    | none => m
  match (m.sec s).rela with
  | some r => m.modSec r fun x => { x with status := .same }
  | none => m

/-- `xsplice_mark_ignored_functions_same`。 -/
def xspliceMarkIgnoredFunctionsSame (m : Mem) (kelf : Elf) : Except Abort Mem := do
  let some p := findSectionByName m kelf.sections ".xsplice.ignore.functions" | return m
  let r ← deref (m.sec p).rela "sec->rela"
  (m.sec r).relas.foldlM (fun m rela => do
    let y := m.sym rela.sym
    let some s := y.sec | throw (.error "expected bundled symbol")
    if y.type ≠ STT_FUNC then throw (.error "expected function symbol")
    pure (markFunctionSame m rela.sym s)) m

/-- バッファ `buf` の位置 `off` から NUL までの C の文字列。バッファの外に出るなら未定義動作である。 -/
def cStringAt (buf : List UInt8) (off : Int) : Except Abort String :=
  if off < 0 then throw (.undefined "string before the start of its section")
  else
    let rest := buf.drop off.toNat
    if rest.contains 0 then
      pure (String.mk ((rest.takeWhile (· != 0)).map fun b => Char.ofNat b.toNat))
    else throw (.undefined "string runs past the end of its section")

/-- `xsplice_mark_ignored_sections` の一周：`XSPLICE_IGNORE_SECTION()` が残したリロケーション `rela`。 -/
def markIgnoredSection (kelf : Elf) (m : Mem) (rela : Rela) : Except Abort Mem := do
  let strsec ← deref (m.sym rela.sym).sec "rela->sym->sec"
  let m := m.modSec strsec fun x => { x with status := .changed, included := true }
  let name ← cStringAt (m.sec strsec).data.dBuf rela.addend
  let some i := findSectionByName m kelf.sections name
    | throw (.error ("XSPLICE_IGNORE_SECTION: can't find " ++ name))
  let i := if isRelaSection (m.sec i) then (m.sec i).base.getD i else i
  let m := m.modSec i fun x => { x with ignore := true }
  match (m.sec i).twin with
  | some t => pure (m.modSec t fun x => { x with ignore := true })
  | none => pure m

/-- `xsplice_mark_ignored_sections`。 -/
def xspliceMarkIgnoredSections (m : Mem) (kelf : Elf) : Except Abort Mem := do
  let some p := findSectionByName m kelf.sections ".xsplice.ignore.sections" | return m
  let r ← deref (m.sec p).rela "sec->rela"
  (m.sec r).relas.foldlM (markIgnoredSection kelf) m

/-- `xsplice_mark_ignored_sections_same` の一周：無視するセクション `p` と、そのセクションのシンボル、
リロケーションのセクション、`p` の中のシンボルを `SAME` にする。 -/
def markIgnoredSectionSame (kelf : Elf) (m : Mem) (p : SecRef) : Mem :=
  if !(m.sec p).ignore then m
  else
    let m := m.modSec p fun x => { x with status := .same }
    let m := match (m.sec p).secsym with
      | some y => m.modSym y fun z => { z with status := .same }
      | none => m
    let m := match (m.sec p).rela with
      | some r => m.modSec r fun x => { x with status := .same }
      | none => m
    kelf.symbols.foldl (fun m y =>
      if (m.sym y).sec = some p then m.modSym y fun z => { z with status := .same } else m) m

/-- `xsplice_mark_ignored_sections_same`。 -/
def xspliceMarkIgnoredSectionsSame (m : Mem) (kelf : Elf) : Mem :=
  kelf.sections.foldl (markIgnoredSectionSame kelf) m

/-- `xsplice_mark_constant_labels_same`。 -/
def xspliceMarkConstantLabelsSame (m : Mem) (kelf : Elf) : Mem :=
  kelf.symbols.foldl (fun m y =>
    if isConstantLabel (m.sym y) then m.modSym y fun z => { z with status := .same } else m) m

end XspliceDiff

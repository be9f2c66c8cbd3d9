import XspliceDiff.Output

/-!
# `main`

`main` の段階の列。`return 3`（変わった関数がない）の前と後で二つに分ける：前半は二つの入力を比べて
含める要素に印を付け、後半は特別なセクションを作り直し、パッチにできるかを確かめて、出力のモデルを作る。
書き出し（`xsplice_create_shstrtab` から `xsplice_write_output_elf` まで）は核の外にあり、モデルは書き出しに
渡す出力のモデルで終わる。
-/

namespace XspliceDiff

/-- `main` の終わり方：`return 3` か、出力のモデルを書き出しに渡して `return 0`。 -/
inductive Outcome where
  | noChange
  | written (m : Mem) (out : Elf)

/-- 終了コード。未定義動作と終わらないループには終了コードがない。 -/
def exitCode : Except Abort Outcome → Option Nat
  | .ok .noChange => some 3
  | .ok (.written _ _) => some 0
  | .error (.error _) => some 1
  | .error (.diffFatal _) => some 2
  | .error (.undefined _) => none
  | .error .hang => none

/-- `main` の前半：ヘッダの確認から `xsplice_include_new_globals` まで。答えはメモリと、`num_changed` と
`new_globals_exist`。 -/
def mainPrepare (decode : InsnDecoder) (m : Mem) (base patched : Elf) : Except Abort (Mem × Nat × Nat) := do
  xspliceCompareElfHeaders base.ehdr patched.ehdr
  xspliceCheckProgramHeaders base
  xspliceCheckProgramHeaders patched
  let m ← xspliceMarkGroupedSections m patched
  let m ← xspliceReplaceSectionsSyms decode m base
  let m ← xspliceReplaceSectionsSyms decode m patched
  let m ← xspliceRenameMangledFunctions m base patched
  let m := xspliceCorrelateElfs m base patched
  let m ← xspliceCorrelateStaticLocalVariables m patched
  let m ← xspliceMarkIgnoredSections m patched
  let m ← xspliceCompareCorrelatedElements m patched
  let m ← xspliceMarkIgnoredFunctionsSame m patched
  let m := xspliceMarkIgnoredSectionsSame m patched
  let m := xspliceMarkConstantLabelsSame m patched
  let m ← xspliceIncludeStandardElements m patched
  let (m, numChanged) ← xspliceIncludeChangedFunctions m patched
  let m ← xspliceIncludeDebugSections m patched
  let m ← xspliceIncludeHookElements m patched
  let (m, newGlobalsExist) ← xspliceIncludeNewGlobals m patched
  pure (m, numChanged, newGlobalsExist)

/-- `main` の後半：`xsplice_process_special_sections` から、リロケーションのセクションのヘッダまで。 -/
def mainEmit (tgt : Target) (table : LookupTable) (resolve : Bool) (m : Mem) (patched : Elf) :
    Except Abort Outcome := do
  let m ← xspliceProcessSpecialSections m patched
  xspliceVerifyPatchability m patched
  let (m, out, _) := xspliceMigrateIncludedElements m patched
  let some h := out.symbols.find? (fun y => (m.sym y).type = STT_FILE)
    | throw (.error "FILE symbol not found in output. Stripped?\n")
  let hint := (m.sym h).name
  let (m, out) := xspliceCreateStringsElements m out
  let (m, out) ← xspliceCreatePatchesSections tgt table hint resolve m out
  let m ← xspliceBuildStringsSectionData m out
  let m := xspliceRenameLocalSymbols m out hint
  let out := xspliceReorderSymbols m out
  let m := xspliceReindexElements m out
  let m ← xspliceSetRelaSectionLinks m out
  pure (.written m out)

/-- `main`：base と patched のモデル（ローダが作ったもの）を比べる。`resolve` は `--resolve` である。 -/
def xspliceMain (tgt : Target) (table : LookupTable) (resolve : Bool) (m : Mem) (base patched : Elf) :
    Except Abort Outcome := do
  let (m, numChanged, newGlobalsExist) ← mainPrepare tgt.decode m base patched
  if numChanged = 0 ∧ newGlobalsExist = 0 then return .noChange
  mainEmit tgt table resolve m patched

end XspliceDiff

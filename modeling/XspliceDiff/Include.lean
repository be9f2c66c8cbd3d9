import XspliceDiff.Compare

/-!
# 出力に含める要素（§4.4）

`include` の印を付ける段階と、`xsplice_verify_patchability`。`xsplice_include_symbol` は再帰し、
再帰の一段ごとに、まだ含めていないセクションを一つ含める。モデルでは再帰の深さを燃料で数え、
燃料が尽きることを `Abort.hang` で表す。呼ぶ側はセクションの数より一つ多い燃料を渡す。
-/

namespace XspliceDiff

/-! ## 標準の要素 -/

/-- `xsplice_include_standard_elements` が必ず含めるセクションの名前。 -/
def isStandardSection (name : String) : Bool :=
  name == ".shstrtab" || name == ".strtab" || name == ".symtab" || hasPrefix name ".rodata.str1."

/-- `xsplice_include_standard_elements`。最後の行は、シンボルのリストの先頭（NULL シンボル）を含める。 -/
def xspliceIncludeStandardElements (m : Mem) (kelf : Elf) : Except Abort Mem := do
  let m := kelf.sections.foldl (fun m p =>
    if !isStandardSection (m.sec p).name then m
    else
      let m := m.includeSec p
      match (m.sec p).secsym with
      | some y => m.includeSym y
      | none => m) m
  let some y := kelf.symbols.head? | throw (.undefined "first entry of an empty symbol list")
  pure (m.includeSym y)

/-! ## 再帰的に含める -/

/-- `xsplice_include_symbol` の中ほど：シンボル `p` のセクション `s` を含め、セクションのシンボルが `p` で
なければ、それも含める。 -/
def includeSectionOf (m : Mem) (s : SecRef) (p : SymRef) : Mem :=
  let m := m.includeSec s
  match (m.sec s).secsym with
  | some y => if y ≠ p then m.includeSym y else m
  | none => m

/-- `xsplice_include_symbol`。シンボル `p` を含め、`p` のセクションを含めるべきなら、そのセクション、
セクションのシンボル、リロケーションのセクションを含めて、リロケーションの参照先ごとに再帰する。 -/
def xspliceIncludeSymbol : Nat → Mem → SymRef → Except Abort Mem
  | 0, _, _ => throw .hang
  | fuel + 1, m, p => do
    let m := m.includeSym p
    let sym := m.sym p
    let some s := sym.sec | return m
    if (m.sec s).included || (sym.type ≠ STT_SECTION ∧ sym.status = .same) then return m
    let m := includeSectionOf m s p
    let some r := (m.sec s).rela | return m
    let m := m.includeSec r
    (m.sec r).relas.foldlM (fun m rela => xspliceIncludeSymbol fuel m rela.sym) m

/-- `xsplice_include_symbol` の燃料：再帰の一段ごとに新しいセクションを一つ含めるので、深さはセクションの数を超えない。 -/
def includeFuel (kelf : Elf) : Nat := kelf.sections.length + 1

/-- `xsplice_include_changed_functions` のループの一周：`CHANGED` の関数を含めて数え、`STT_FILE` のシンボルを含める。 -/
def includeChangedFunction (fuel : Nat) : Mem × Nat → SymRef → Except Abort (Mem × Nat)
  | (m, n), p => do
    let (m, n) ←
      if (m.sym p).status = .changed ∧ (m.sym p).type = STT_FUNC then do
        let m ← xspliceIncludeSymbol fuel m p
        pure (m, n + 1)
      else pure (m, n)
    if (m.sym p).type = STT_FILE then pure (m.includeSym p, n)
    else pure (m, n)

/-- `xsplice_include_changed_functions`：`CHANGED` の関数を含め、その数を返す。 -/
def xspliceIncludeChangedFunctions (m : Mem) (kelf : Elf) : Except Abort (Mem × Nat) :=
  kelf.symbols.foldlM (includeChangedFunction (includeFuel kelf)) (m, 0)

/-! ## デバッグのセクションとフック -/

/-- `xsplice_include_debug_sections`：`.debug_*` のセクションをすべて含め、`.rela.debug_*` からは、参照先の
シンボルのセクションが含まれていないリロケーションを除く。 -/
def xspliceIncludeDebugSections (m : Mem) (kelf : Elf) : Except Abort Mem := do
  let m ← kelf.sections.foldlM (fun m p => do
    let sec := m.sec p
    if !isDebugSection m sec then return m
    let m := m.includeSec p
    if isRelaSection sec then return m
    let y ← deref sec.secsym "sec->secsym"
    pure (m.includeSym y)) m
  kelf.sections.foldlM (fun m p => do
    let sec := m.sec p
    if !isRelaSection sec || !isDebugSection m sec then return m
    let relas ← sec.relas.filterM fun rela => do
      let s ← deref (m.sym rela.sym).sec "rela->sym->sec"
      pure (m.sec s).included
    pure (m.modSec p fun x => { x with relas := relas })) m

/-- `xsplice_include_hook_elements` が含めるセクションの名前。 -/
def hookSectionNames : List String :=
  [".xsplice.hooks.load", ".xsplice.hooks.unload", ".rela.xsplice.hooks.load", ".rela.xsplice.hooks.unload"]

/-- `xsplice_include_hook_elements` の最初のループの一周。フックのリロケーションのセクションでは、
先頭のリロケーションの参照先を含めてから外し、参照先を、そのシンボルのセクションのシンボルに付け替える。
C はそのセクションのシンボルが NULL でも付け替え、出力を書くときにたどる。モデルは付け替えの時点で止める。 -/
def includeHookSection (fuel : Nat) (m : Mem) (p : SecRef) : Except Abort Mem := do
  let sec := m.sec p
  if !hookSectionNames.contains sec.name then return m
  let m := m.includeSec p
  if isRelaSection sec then
    let some rela := sec.relas.head? | throw (.undefined "first entry of an empty relocation list")
    let m ← xspliceIncludeSymbol fuel m rela.sym
    let m := m.modSym rela.sym fun z => { z with included := false }
    let s ← deref (m.sym rela.sym).sec "sym->sec"
    let m := m.modSec s fun x => { x with sym := none }
    let ss ← deref (m.sec s).secsym "rela->sym = sym->sec->secsym"
    pure (m.modSec p fun x => { x with relas := { rela with sym := ss } :: sec.relas.tail })
  else
    let ss ← deref sec.secsym "sec->secsym"
    pure (m.includeSym ss)

/-- `xsplice_include_hook_elements`。 -/
def xspliceIncludeHookElements (m : Mem) (kelf : Elf) : Except Abort Mem := do
  let m ← kelf.sections.foldlM (includeHookSection (includeFuel kelf)) m
  pure <| kelf.symbols.foldl (fun m y =>
    if (m.sym y).name = "xsplice_load_data" ∨ (m.sym y).name = "xsplice_unload_data" then
      m.modSym y fun z => { z with included := false }
    else m) m

/-- `xsplice_include_new_globals` のループの一周：セクションを持つ `NEW` の大域シンボルを含めて数える。 -/
def includeNewGlobal (fuel : Nat) : Mem × Nat → SymRef → Except Abort (Mem × Nat)
  | (m, n), p => do
    let sym := m.sym p
    if sym.bind = STB_GLOBAL ∧ sym.sec.isSome ∧ sym.status = .new then
      let m ← xspliceIncludeSymbol fuel m p
      pure (m, n + 1)
    else pure (m, n)

/-- `xsplice_include_new_globals`：セクションを持つ `NEW` の大域シンボルを含め、その数を返す。 -/
def xspliceIncludeNewGlobals (m : Mem) (kelf : Elf) : Except Abort (Mem × Nat) :=
  kelf.symbols.foldlM (includeNewGlobal (includeFuel kelf)) (m, 0)

/-! ## パッチにできるかの確認 -/

/-- `xsplice_verify_patchability` が一つのセクションに数える誤りの数。 -/
def sectionErrors (sec : Section) : Nat :=
  (if sec.status = .changed ∧ sec.included = false then 1 else 0) +
  (if sec.status ≠ .same ∧ sec.grouped = true then 1 else 0) +
  (if sec.sh.shType = SHT_GROUP ∧ sec.status = .new then 1 else 0) +
  (if sec.included = true ∧ sec.status ≠ .new ∧ (hasPrefix sec.name ".data" || hasPrefix sec.name ".bss") ∧
      sec.name ≠ ".data.unlikely" then 1 else 0)

/-- `xsplice_verify_patchability`。 -/
def xspliceVerifyPatchability (m : Mem) (kelf : Elf) : Except Abort Unit :=
  let errs := (kelf.sections.map fun p => sectionErrors (m.sec p)).sum
  if errs ≠ 0 then throw (.diffFatal (toString errs ++ " unsupported section change(s)")) else pure ()

end XspliceDiff

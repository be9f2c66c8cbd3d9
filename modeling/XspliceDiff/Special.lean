import XspliceDiff.Include

/-!
# 特別なセクションの作り直し（§4.5）

`.bug_frames.*`、`.fixup`、`.ex_table`、`.altinstructions` を、グループ単位で、含めた関数を参照する
グループだけに詰め直す。`xsplice_regenerate_special_section` のループは `src_offset` を 0 から
`group_size` ずつ進め、残すグループのバイトを新しいバッファの後ろに写し、そのグループのリロケーションを
新しいリストに移して位置をずらす。
-/

namespace XspliceDiff

/-! ## グループの大きさ -/

/-- `struct special_section`：セクションの名前と、その `group_size`。 -/
structure SpecialSection where
  name : String
  groupSize : Mem → Elf → Nat → Except Abort Nat

/-- 大きさが決まったグループの `group_size`。 -/
def fixedGroupSize (size : Nat) (_ : Mem) (_ : Elf) (_ : Nat) : Except Abort Nat := pure size

/-- `bug_frames_0_group_size`。 -/
def bugFrames0GroupSize : Mem → Elf → Nat → Except Abort Nat := fixedGroupSize 8
/-- `bug_frames_1_group_size`。 -/
def bugFrames1GroupSize : Mem → Elf → Nat → Except Abort Nat := fixedGroupSize 8
/-- `bug_frames_2_group_size`。 -/
def bugFrames2GroupSize : Mem → Elf → Nat → Except Abort Nat := fixedGroupSize 8
/-- `bug_frames_3_group_size`。 -/
def bugFrames3GroupSize : Mem → Elf → Nat → Except Abort Nat := fixedGroupSize 16
/-- `ex_table_group_size`。 -/
def exTableGroupSize : Mem → Elf → Nat → Except Abort Nat := fixedGroupSize 8
/-- `altinstructions_group_size`。 -/
def altinstructionsGroupSize : Mem → Elf → Nat → Except Abort Nat := fixedGroupSize 12

/-- `fixup_group_size`：`.rela.ex_table` の中で `.fixup` の `offset` を指す最初のリロケーションを探し、
その後ろで `offset` より先を指す最初のリロケーションまでを一つのグループとする。なければ `.fixup` の終わりまで。 -/
def fixupGroupSize (m : Mem) (kelf : Elf) (offset : Nat) : Except Abort Nat := do
  let some sp := findSectionByName m kelf.sections ".rela.ex_table"
    | throw (.error "missing .rela.ex_table section")
  let isFixup (rela : Rela) : Bool := (m.sym rela.sym).name == ".fixup"
  match (m.sec sp).relas.dropWhile (fun rela => !(isFixup rela && rela.addend == offset)) with
  | [] => throw (.error ("can't find .fixup rela group at offset " ++ toString offset ++ "\n"))
  | _ :: rest =>
    match rest.find? (fun rela => isFixup rela && decide (rela.addend > offset)) with
    | some rela => pure (rela.addend - offset).toNat
    | none => do
      let f ← deref (findSectionByName m kelf.sections ".fixup") "fixupsec"
      pure ((m.sec f).sh.shSize - offset)

/-- `special_sections`。 -/
def specialSections : List SpecialSection :=
  [⟨".bug_frames.0", bugFrames0GroupSize⟩, ⟨".bug_frames.1", bugFrames1GroupSize⟩,
   ⟨".bug_frames.2", bugFrames2GroupSize⟩, ⟨".bug_frames.3", bugFrames3GroupSize⟩,
   ⟨".fixup", fixupGroupSize⟩, ⟨".ex_table", exTableGroupSize⟩,
   ⟨".altinstructions", altinstructionsGroupSize⟩]

/-! ## グループを残すかどうか -/

/-- リロケーション `rela` がグループ `[start, start + size)` の中にある。 -/
def inGroup (start size : Nat) (rela : Rela) : Bool := start ≤ rela.offset && rela.offset < start + size

/-- `should_keep_rela_group` のループの一周。 -/
def keepRelaStep (m : Mem) (start size : Nat) (found : Bool) (rela : Rela) : Except Abort Bool :=
  if inGroup start size rela && (m.sym rela.sym).type == STT_FUNC then do
    let s ← deref (m.sym rela.sym).sec "rela->sym->sec"
    pure (found || (m.sec s).included)
  else pure found

/-- `should_keep_rela_group`：グループの中のリロケーションのどれかが、セクションを含めた関数を参照する。
C のループは途中で抜けないので、見つけた後のリロケーションの参照先もたどる。 -/
def shouldKeepRelaGroup (m : Mem) (relas : List Rela) (start size : Nat) : Except Abort Bool :=
  relas.foldlM (keepRelaStep m start size) false

/-! ## 作り直し -/

/-- `xsplice_regenerate_special_section` のループの変数。`dest` は新しいバッファのうち書いた部分で、
その長さは `destOffset` である。`groups` は C の変数ではなく、歩いたグループ（始まりと大きさ）を順に記録する。 -/
structure RegenState where
  mem : Mem
  srcOffset : Nat := 0
  destOffset : Nat := 0
  dest : List UInt8 := []
  newrelas : List Rela := []
  groups : List (Nat × Nat) := []

/-- `list_for_each_entry_safe` のループ：`relas` のうちグループ `[srcOffset, srcOffset + size)` にあるものを、
順に取り出して位置を `srcOffset - destOffset` だけ前にずらし、参照先のシンボルを含める。
答えは、メモリ、取り出したリロケーション、残ったリロケーション。 -/
def moveGroupRelas (srcOffset destOffset size : Nat) : Mem → List Rela → Mem × List Rela × List Rela
  | m, [] => (m, [], [])
  | m, rela :: relas =>
    if inGroup srcOffset size rela then
      let offset := rela.offset - (srcOffset - destOffset)
      let r := moveGroupRelas srcOffset destOffset size (m.includeSym rela.sym) relas
      (r.1, { rela with offset := offset, rOffset := offset } :: r.2.1, r.2.2)
    else
      let r := moveGroupRelas srcOffset destOffset size m relas
      (r.1, r.2.1, rela :: r.2.2)

/-- `memcpy(dest + destOffset, src + srcOffset, size)`：`dest` は大きさ `cap` のバッファの書いた部分
（長さ `destOffset`）である。`src` の外を読むか、`cap` の外に書くなら未定義動作である。 -/
def memcpyGroup (cap : Nat) (dest src : List UInt8) (destOffset srcOffset size : Nat) :
    Except Abort (List UInt8) :=
  if src.length < srcOffset + size then throw (.undefined "memcpy reads past the end of the section")
  else if cap < destOffset + size then throw (.undefined "memcpy writes past the end of dest")
  else pure (dest ++ (src.drop srcOffset).take size)

/-- ループの一周：グループの大きさを求め、残すなら、リロケーションを移してバイトを写す。 -/
def regenerateStep (special : SpecialSection) (kelf : Elf) (sp : SecRef) (src : List UInt8) (cap : Nat)
    (st : RegenState) : Except Abort RegenState := do
  let groupSize ← special.groupSize st.mem kelf st.srcOffset
  let keep ← shouldKeepRelaGroup st.mem (st.mem.sec sp).relas st.srcOffset groupSize
  let groups := st.groups ++ [(st.srcOffset, groupSize)]
  if !keep then return { st with srcOffset := st.srcOffset + groupSize, groups := groups }
  let (m, moved, rest) := moveGroupRelas st.srcOffset st.destOffset groupSize st.mem (st.mem.sec sp).relas
  let dest ← memcpyGroup cap st.dest src st.destOffset st.srcOffset groupSize
  pure { mem := m.modSec sp fun x => { x with relas := rest }, srcOffset := st.srcOffset + groupSize,
         destOffset := st.destOffset + groupSize, dest := dest, newrelas := st.newrelas ++ moved,
         groups := groups }

/-- `for ( ; src_offset < sh_size; src_offset += group_size)`。どのグループも大きさが 1 以上なら、周回は
`sh_size` 回を超えないので、燃料は `sh_size` で足りる。 -/
def regenerateLoop (special : SpecialSection) (kelf : Elf) (sp : SecRef) (src : List UInt8) (size : Nat) :
    Nat → RegenState → Except Abort RegenState
  | 0, st => if st.srcOffset < size then throw .hang else pure st
  | fuel + 1, st =>
    if st.srcOffset < size then do
      let st ← regenerateStep special kelf sp src size st
      regenerateLoop special kelf sp src size fuel st
    else pure st

/-- `xsplice_regenerate_special_section`：リロケーションのセクション `sp` と、その `base` の特別なセクションを
詰め直す。メモリのほかに、歩いたグループを順に返す（C の関数は返さない）。 -/
def xspliceRegenerateSpecialSection (special : SpecialSection) (m : Mem) (kelf : Elf) (sp : SecRef) :
    Except Abort (Mem × List (Nat × Nat)) := do
  let b ← deref (m.sec sp).base "sec->base"
  let size := (m.sec b).sh.shSize
  let st ← regenerateLoop special kelf sp (m.sec b).data.dBuf size size { mem := m }
  let align := (m.sec b).sh.shAddralign
  if align = 0 then throw (.undefined "division by zero: sh_addralign is 0")
  if st.srcOffset ≠ (size + align - 1) / align * align then
    throw (.error ("group size mismatch for section " ++ (m.sec b).name ++ "\n"))
  let m := st.mem
  if st.destOffset = 0 then
    return ((m.modSec sp fun x => { x with status := .same, included := false }).modSec b
      fun x => { x with status := .same, included := false }, st.groups)
  let m := m.modSec sp fun x => { x with relas := st.newrelas, included := true }
  pure (m.modSec b fun x => { x with included := true, data := { dBuf := st.dest, dSize := st.destOffset } },
    st.groups)

/-- `xsplice_process_special_sections` の後半の一周：`.altinstr_replacement` を、その中のシンボル、
リロケーションのセクションとその参照先とともに含める。 -/
def includeAltinstrReplacement (kelf : Elf) (m : Mem) (p : SecRef) : Mem :=
  if (m.sec p).name ≠ ".altinstr_replacement" then m
  else
    let m := m.includeSec p
    let m := kelf.symbols.foldl (fun m y => if (m.sym y).sec = some p then m.includeSym y else m) m
    match (m.sec p).rela with
    | none => m
    | some r =>
      let m := m.includeSec r
      (m.sec r).relas.foldl (fun m rela => m.includeSym rela.sym) m

/-- `xsplice_process_special_sections`。 -/
def xspliceProcessSpecialSections (m : Mem) (kelf : Elf) : Except Abort Mem := do
  let m ← specialSections.foldlM (fun m special => do
    let some b := findSectionByName m kelf.sections special.name | return m
    let some r := (m.sec b).rela | return m
    let (m, _) ← xspliceRegenerateSpecialSection special m kelf r
    pure m) m
  pure (kelf.sections.foldl (includeAltinstrReplacement kelf) m)

end XspliceDiff

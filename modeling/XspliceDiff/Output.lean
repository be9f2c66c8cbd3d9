import XspliceDiff.Special

/-!
# 出力のモデル（§4.6、§4.7）

含めた要素を出力のモデルに移し、`.xsplice.strings`、`.xsplice.funcs` とそのリロケーションのセクションを作り、
局所的なシンボルの名前を変え、シンボルを並べ替えて番号を振る。外のもの（動いているイメージのシンボル表、
`struct xsplice_patch_func` の配置、`PATCH_INSN_SIZE`）はパラメータである。
-/

namespace XspliceDiff

/-! ## 出力のモデルへ移す -/

/-- `xsplice_migrate_included_elements` のセクションの一周：番号を 0 にし、含めないセクションのシンボルへの
リンクを切る（リロケーションのセクションでないとき）。 -/
def migrateSection (m : Mem) (p : SecRef) : Mem :=
  m.modSec p fun x =>
    { x with index := 0,
             secsym := if !isRelaSection x && x.secsym.any (fun y => !(m.sym y).included) then none
               else x.secsym }

/-- `xsplice_migrate_included_elements` のシンボルの一周：番号と `strip` を 0 にし、含めないセクションへの
リンクを切る。 -/
def migrateSymbol (m : Mem) (p : SymRef) : Mem :=
  m.modSym p fun y =>
    { y with index := 0, strip := false,
             sec := if y.sec.any (fun s => !(m.sec s).included) then none else y.sec }

/-- `xsplice_migrate_included_elements`：含めたセクションとシンボルを、順序を保って新しいモデルに移す。
答えは、メモリ、出力のモデル、残った patched のモデル。 -/
def xspliceMigrateIncludedElements (m : Mem) (kelf : Elf) : Mem × Elf × Elf :=
  let secs := kelf.sections.filter fun p => (m.sec p).included
  let m := secs.foldl migrateSection m
  let syms := kelf.symbols.filter fun p => (m.sym p).included
  let m := syms.foldl migrateSymbol m
  (m, { sections := secs, symbols := syms },
    { kelf with sections := kelf.sections.filter (fun p => !(m.sec p).included),
                symbols := kelf.symbols.filter (fun p => !(m.sym p).included) })

/-! ## 文字列 -/

/-- C の文字列のバイト。名前は ASCII の文字の並びである。 -/
def cBytes (s : String) : List UInt8 := s.toList.map fun c => c.toNat.toUInt8

/-- Modelled from the spec: `offset_of_string`（`common.c`）。文字列の表は、挿入の順に NUL で終わる文字列を
並べたもの（§4.6）で、`name` の位置を返す。表になければ後ろに加える。答えは新しい表と位置。 -/
def offsetOfString : List String → String → List String × Nat
  | [], name => ([name], 0)
  | s :: ss, name =>
    if s = name then (s :: ss, 0)
    else
      let r := offsetOfString ss name
      (s :: r.1, (cBytes s).length + 1 + r.2)

/-- `xsplice_create_strings_elements`：`.xsplice.strings` と、そのセクションのシンボルを作る。 -/
def xspliceCreateStringsElements (m : Mem) (kelf : Elf) : Mem × Elf :=
  let sp := m.nsec
  let sec : Section :=
    { name := ".xsplice.strings",
      sh := { shType := SHT_PROGBITS, shEntsize := 1, shAddralign := 1, shFlags := SHF_ALLOC } }
  let m := m.allocSec sec
  let yp := m.nsym
  let sym : Symbol :=
    { name := ".xsplice.strings", sec := some sp, sym := { stInfo := STB_LOCAL * 16 + STT_SECTION },
      type := STT_SECTION, bind := STB_LOCAL }
  let m := m.allocSym sym
  (m, { kelf with sections := kelf.sections ++ [sp], symbols := kelf.symbols ++ [yp] })

/-- `xsplice_build_strings_section_data`：文字列の表を NUL で区切って並べ、`.xsplice.strings` の中身にする。 -/
def xspliceBuildStringsSectionData (m : Mem) (kelf : Elf) : Except Abort Mem := do
  let some sp := findSectionByName m kelf.sections ".xsplice.strings"
    | throw (.error "can't find .xsplice.strings")
  let strtab := kelf.strings.flatMap fun s => cBytes s ++ [0]
  pure (m.modSec sp fun x => { x with data := { dBuf := strtab, dSize := strtab.length } })

/-- `mangle_local_symbol`：`filename#symbolname`。 -/
def mangleLocalSymbol (filename symname : String) : String := filename ++ "#" ++ symname

/-- `xsplice_rename_local_symbols`：名前のある局所的な関数とオブジェクトの名前を `hint#name` にする。 -/
def xspliceRenameLocalSymbols (m : Mem) (kelf : Elf) (hint : String) : Mem :=
  kelf.symbols.foldl (fun m p =>
    let sym := m.sym p
    if sym.name = "" ∨ (sym.type ≠ STT_FUNC ∧ sym.type ≠ STT_OBJECT) ∨ sym.bind ≠ STB_LOCAL then m
    else m.modSym p fun y => { y with name := mangleLocalSymbol hint y.name }) m

/-! ## パッチの表 -/

/-- `struct lookup_result`。 -/
structure LookupResult where
  value : Nat
  size : Nat

/-- 動いているイメージのシンボル表（§6）。`lookup_global_symbol` と `lookup_local_symbol` が見つけたものを返す。 -/
structure LookupTable where
  lookupGlobal : String → Option LookupResult
  lookupLocal : String → String → Option LookupResult

/-- `struct xsplice_patch_func` の配置（§6）。構造体の宣言はリポジトリにないので、パラメータとする。 -/
structure PatchFuncLayout where
  size : Nat
  oldAddr : Nat
  newAddr : Nat
  oldSize : Nat
  newSize : Nat
  name : Nat
  pad : Nat
  padSize : Nat

/-- バッファ `buf` の位置 `off` に、`value` を `width` バイトのリトルエンディアンで書く。 -/
def writeLE (buf : List UInt8) (off width value : Nat) : List UInt8 :=
  (List.range width).foldl (fun buf i => buf.set (off + i) (value / 256 ^ i).toUInt8) buf

/-- `create_section_pair`：`name` と `.rela` を前に付けた名前のセクションの対を作る。`name` のセクションの
中身は `entsize * nr` バイトの、まだ書いていないバッファである。答えの番号は `name` のセクションのもの。 -/
def createSectionPair (m : Mem) (kelf : Elf) (name : String) (entsize nr : Nat) : Mem × Elf × SecRef :=
  let size := entsize * nr
  let sp := m.nsec
  let sec : Section :=
    { name := name, data := { dBuf := List.replicate size 0, dSize := size },
      sh := { shType := SHT_PROGBITS, shEntsize := entsize, shAddralign := 8, shFlags := SHF_ALLOC,
              shSize := size } }
  let m := m.allocSec sec
  let rp := m.nsec
  let relasec : Section :=
    { name := ".rela" ++ name, base := some sp,
      sh := { shType := SHT_RELA, shEntsize := 24, shAddralign := 8 } }
  let m := m.allocSec relasec
  (m.modSec sp fun x => { x with rela := some rp },
    { kelf with sections := kelf.sections ++ [sp, rp] }, sp)

/-- 外のもの：命令のデコーダ、`PATCH_INSN_SIZE`、`struct xsplice_patch_func` の配置。 -/
structure Target where
  decode : InsnDecoder
  patchInsnSize : Nat
  layout : PatchFuncLayout

/-- `xsplice_create_patches_sections` のループの一周：`CHANGED` の関数 `p` の表の項目を `index` に書き、
その `new_addr` と `name` を埋める二つのリロケーションを加える。 -/
def patchEntry (tgt : Target) (table : LookupTable) (hint : String) (resolve : Bool) (sp rp strsym : SecRef)
    (acc : Mem × Elf × Nat) (p : SymRef) : Except Abort (Mem × Elf × Nat) := do
  let (m, kelf, index) := acc
  let sym := m.sym p
  let (funcname, result) ←
    if sym.bind = STB_LOCAL then
      match table.lookupLocal sym.name hint with
      | some r => pure (mangleLocalSymbol hint sym.name, r)
      | none => throw (.error ("lookup_local_symbol " ++ sym.name ++ " (" ++ hint ++ ")"))
    else
      match table.lookupGlobal sym.name with
      | some r => pure (sym.name, r)
      | none => throw (.error ("lookup_global_symbol " ++ sym.name))
  if result.size < tgt.patchInsnSize then throw (.error (sym.name ++ " too small to patch"))
  let l := tgt.layout
  let entry := index * l.size
  let buf := (m.sec sp).data.dBuf
  let buf := writeLE buf (entry + l.oldAddr) 8 (if resolve then result.value else 0)
  let buf := writeLE buf (entry + l.oldSize) 4 result.size
  let buf := writeLE buf (entry + l.newAddr) 8 0
  let buf := writeLE buf (entry + l.newSize) 4 sym.sym.stSize
  let buf := writeLE buf (entry + l.pad) l.padSize 0
  let (strings, off) := offsetOfString kelf.strings funcname
  let newAddr : Rela := { sym := p, type := R_X86_64_64, addend := 0, offset := entry }
  let name : Rela := { sym := strsym, type := R_X86_64_64, addend := off, offset := entry + l.name }
  let m := m.modSec sp fun x => { x with data := { x.data with dBuf := buf } }
  let m := m.modSec rp fun x => { x with relas := x.relas ++ [newAddr, name] }
  pure (m, { kelf with strings := strings }, index + 1)

/-- `xsplice_create_patches_sections`：`CHANGED` の関数ごとに `.xsplice.funcs` の項目を作る。 -/
def xspliceCreatePatchesSections (tgt : Target) (table : LookupTable) (hint : String) (resolve : Bool)
    (m : Mem) (kelf : Elf) : Except Abort (Mem × Elf) := do
  let changed (p : SymRef) : Bool := (m.sym p).type == STT_FUNC && (m.sym p).status == .changed
  let nr := (kelf.symbols.filter changed).length
  let (m, kelf, sp) := createSectionPair m kelf ".xsplice.funcs" tgt.layout.size nr
  let rp := ((m.sec sp).rela).getD 0
  let some strsym := findSymbolByName m kelf.symbols ".xsplice.strings"
    | throw (.error "can't find .xsplice.strings symbol")
  let (m, kelf, index) ← (kelf.symbols.filter changed).foldlM
    (patchEntry tgt table hint resolve sp rp strsym) (m, kelf, 0)
  if index ≠ nr then throw (.error "size mismatch in funcs sections")
  pure (m, kelf)

/-! ## 並べ替えと番号 -/

/-- `xsplice_migrate_symbols`：`src` のうち `select` を満たすもの（`select` が NULL ならすべて）を、順に
`dst` の後ろに移す。答えは新しい `src` と `dst`。 -/
def xspliceMigrateSymbols (m : Mem) (select : Option (Symbol → Bool)) :
    List SymRef → List SymRef → List SymRef × List SymRef
  | [], dst => ([], dst)
  | p :: src, dst =>
    if select.all (fun f => f (m.sym p)) then xspliceMigrateSymbols m select src (dst ++ [p])
    else
      let r := xspliceMigrateSymbols m select src dst
      (p :: r.1, r.2)

/-- `is_null_sym`。 -/
def isNullSym (y : Symbol) : Bool := y.name == ""

/-- `is_file_sym`。 -/
def isFileSym (y : Symbol) : Bool := y.type == STT_FILE

/-- `is_local_func_sym`。 -/
def isLocalFuncSym (y : Symbol) : Bool := y.bind == STB_LOCAL && y.type == STT_FUNC

/-- `xsplice_reorder_symbols`：NULL シンボル、`STT_FILE`、局所的な関数、ほかの局所的なシンボル、残りの順に並べる。 -/
def xspliceReorderSymbols (m : Mem) (kelf : Elf) : Elf :=
  let r := xspliceMigrateSymbols m (some isNullSym) kelf.symbols []
  let r := xspliceMigrateSymbols m (some isFileSym) r.1 r.2
  let r := xspliceMigrateSymbols m (some isLocalFuncSym) r.1 r.2
  let r := xspliceMigrateSymbols m (some isLocalSym) r.1 r.2
  let r := xspliceMigrateSymbols m none r.1 r.2
  { kelf with symbols := r.2 }

/-- `xsplice_reindex_elements` のセクションのループの一周：番号 `i` を付ける。 -/
def reindexSection : Mem × Nat → SecRef → Mem × Nat
  | (m, i), p => (m.modSec p fun x => { x with index := i }, i + 1)

/-- `xsplice_reindex_elements` のシンボルのループの一周：番号 `i` を付け、`st_shndx` をセクションの番号にする
（セクションがなければ、`SHN_ABS` を除いて `SHN_UNDEF`）。 -/
def reindexSymbol : Mem × Nat → SymRef → Mem × Nat
  | (m, i), p =>
    let shndx (y : Symbol) : Nat := match y.sec with
      | some s => (m.sec s).index
      | none => if y.sym.stShndx ≠ SHN_ABS then SHN_UNDEF else y.sym.stShndx
    (m.modSym p fun y => { y with index := i, sym := { y.sym with stShndx := shndx y } }, i + 1)

/-- `xsplice_reindex_elements`：セクションに 1 から、シンボルに 0 から番号を振る。 -/
def xspliceReindexElements (m : Mem) (kelf : Elf) : Mem :=
  let m := (kelf.sections.foldl reindexSection (m, 1)).1
  (kelf.symbols.foldl reindexSymbol (m, 0)).1

/-- `main` の終わりのループ：リロケーションのセクションの `sh_link` を `.symtab` の番号に、`sh_info` を `base` の
番号にする（リロケーションの中身を作り直す `xsplice_rebuild_rela_section_data` は書き出しの側である）。 -/
def xspliceSetRelaSectionLinks (m : Mem) (kelf : Elf) : Except Abort Mem := do
  let symtab ← deref (findSectionByName m kelf.sections ".symtab") "symtab"
  pure <| kelf.sections.foldl (fun m p =>
    if !isRelaSection (m.sec p) then m
    else m.modSec p fun x => { x with sh := { x.sh with shLink := (m.sec symtab).index, shInfo := (m.base x).index } }) m

end XspliceDiff

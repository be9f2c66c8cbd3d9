import Mathlib

/-!
# ELF オブジェクトのモデル

`create-diff-object.c` の `struct section`、`struct symbol`、`struct rela` と、その間のポインタを表す。
ポインタはメモリ `Mem` の中の番号である。base、patched、出力の三つのモデル（`struct xsplice_elf`）は、
同じメモリの中のセクションの番号の並びとシンボルの番号の並びで、C のリストの順序は並びの順序である。

ローダとリストを引く関数（`common.c`、`common.h`）はリポジトリにないので、仕様の言葉から書く。
-/

namespace XspliceDiff

/-! ## ELF の定数 -/

def SHT_PROGBITS : Nat := 1
def SHT_RELA : Nat := 4
def SHT_NOBITS : Nat := 8
def SHT_GROUP : Nat := 17

def SHF_ALLOC : Nat := 2
def SHF_EXECINSTR : Nat := 4

def STT_NOTYPE : Nat := 0
def STT_OBJECT : Nat := 1
def STT_FUNC : Nat := 2
def STT_SECTION : Nat := 3
def STT_FILE : Nat := 4

def STB_LOCAL : Nat := 0
def STB_GLOBAL : Nat := 1

def SHN_UNDEF : Nat := 0
def SHN_ABS : Nat := 0xfff1

def R_X86_64_64 : Nat := 1
def R_X86_64_PC32 : Nat := 2
def R_X86_64_32S : Nat := 11

/-! ## セクション、シンボル、リロケーション -/

/-- `enum status`。ゼロで埋めて作った要素は `NEW` である。 -/
inductive Status where
  | new
  | changed
  | same
  deriving DecidableEq, Repr, Inhabited

/-- `struct section *` の指す先。 -/
abbrev SecRef := Nat

/-- `struct symbol *` の指す先。 -/
abbrev SymRef := Nat

/-- `GElf_Shdr` のうち、このファイルが読み書きするフィールド。 -/
structure Shdr where
  shType : Nat := 0
  shFlags : Nat := 0
  shAddr : Nat := 0
  shSize : Nat := 0
  shLink : Nat := 0
  shInfo : Nat := 0
  shAddralign : Nat := 0
  shEntsize : Nat := 0
  deriving DecidableEq, Repr, Inhabited

/-- `Elf_Data` の `d_buf` と `d_size`。`d_buf` の長さは、ローダが読んだセクションでは `d_size` である。 -/
structure Data where
  dBuf : List UInt8 := []
  dSize : Nat := 0
  deriving DecidableEq, Repr, Inhabited

/-- `struct rela`。`rOffset` は `GElf_Rela` の `r_offset` である。 -/
structure Rela where
  sym : SymRef := 0
  type : Nat := 0
  addend : Int := 0
  offset : Nat := 0
  rOffset : Nat := 0
  string : Option String := none
  deriving DecidableEq, Repr, Inhabited

/-- `struct section`。`relas` はリロケーションのセクションが持つリロケーションのリスト、`included` は C の
`include`（Lean の予約語）である。 -/
structure Section where
  name : String := ""
  sh : Shdr := {}
  data : Data := {}
  index : Nat := 0
  base : Option SecRef := none
  rela : Option SecRef := none
  secsym : Option SymRef := none
  sym : Option SymRef := none
  relas : List Rela := []
  grouped : Bool := false
  ignore : Bool := false
  included : Bool := false
  status : Status := .new
  twin : Option SecRef := none
  deriving DecidableEq, Repr, Inhabited

/-- `GElf_Sym` のうち、このファイルが読み書きするフィールド。 -/
structure ElfSym where
  stInfo : Nat := 0
  stOther : Nat := 0
  stShndx : Nat := 0
  stValue : Nat := 0
  stSize : Nat := 0
  deriving DecidableEq, Repr, Inhabited

/-- `struct symbol`。`included` は C の `include` である。 -/
structure Symbol where
  name : String := ""
  sym : ElfSym := {}
  type : Nat := 0
  bind : Nat := 0
  index : Nat := 0
  sec : Option SecRef := none
  included : Bool := false
  strip : Bool := false
  status : Status := .new
  twin : Option SymRef := none
  deriving DecidableEq, Repr, Inhabited

/-- `GElf_Ehdr` のうち、`xsplice_compare_elf_headers` が比べるフィールド。 -/
structure Ehdr where
  eIdent : List UInt8 := []
  eType : Nat := 0
  eMachine : Nat := 0
  eVersion : Nat := 0
  eEntry : Nat := 0
  ePhoff : Nat := 0
  eFlags : Nat := 0
  eEhsize : Nat := 0
  ePhentsize : Nat := 0
  eShentsize : Nat := 0
  deriving DecidableEq, Repr, Inhabited

/-- `struct xsplice_elf`：ELF のヘッダ、プログラムヘッダの数と、セクション、シンボル、文字列のリスト。 -/
structure Elf where
  ehdr : Ehdr := {}
  phnum : Nat := 0
  sections : List SecRef := []
  symbols : List SymRef := []
  strings : List String := []
  deriving DecidableEq, Repr, Inhabited

/-! ## メモリ -/

/-- 確保したセクションとシンボル。`nsec` と `nsym` は、次に確保する番号である。 -/
structure Mem where
  sec : SecRef → Section
  sym : SymRef → Symbol
  nsec : Nat
  nsym : Nat

namespace Mem

/-- セクション `p` を `f` で書き換える。 -/
def modSec (m : Mem) (p : SecRef) (f : Section → Section) : Mem :=
  { m with sec := fun q => if q = p then f (m.sec p) else m.sec q }

/-- シンボル `p` を `f` で書き換える。 -/
def modSym (m : Mem) (p : SymRef) (f : Symbol → Symbol) : Mem :=
  { m with sym := fun q => if q = p then f (m.sym p) else m.sym q }

/-- `ALLOC_LINK` のうちメモリの側：番号 `nsec` にセクションを置く。 -/
def allocSec (m : Mem) (s : Section) : Mem :=
  { m with sec := fun q => if q = m.nsec then s else m.sec q, nsec := m.nsec + 1 }

/-- `ALLOC_LINK` のうちメモリの側：番号 `nsym` にシンボルを置く。 -/
def allocSym (m : Mem) (y : Symbol) : Mem :=
  { m with sym := fun q => if q = m.nsym then y else m.sym q, nsym := m.nsym + 1 }

/-- シンボル `p` に `include` の印を付ける（`sym->include = 1`）。 -/
def includeSym (m : Mem) (p : SymRef) : Mem := m.modSym p fun y => { y with included := true }

/-- セクション `p` に `include` の印を付ける（`sec->include = 1`）。 -/
def includeSec (m : Mem) (p : SecRef) : Mem := m.modSec p fun x => { x with included := true }

/-- セクションとシンボルの表から作るメモリ：番号は表の中の位置である。 -/
def ofLists (secs : List Section) (syms : List Symbol) : Mem :=
  { sec := fun p => secs.getD p default, sym := fun p => syms.getD p default,
    nsec := secs.length, nsym := syms.length }

/-- リロケーションのセクションの `base`。ローダはリロケーションのセクションに必ず `base` を置く。 -/
def base (m : Mem) (s : Section) : Section :=
  match s.base with
  | some b => m.sec b
  | none => default

@[simp] theorem modSec_sec_self (m : Mem) (p : SecRef) (f : Section → Section) :
    (m.modSec p f).sec p = f (m.sec p) := by simp [modSec]

@[simp] theorem modSec_sec_of_ne (m : Mem) {p q : SecRef} (f : Section → Section) (h : q ≠ p) :
    (m.modSec p f).sec q = m.sec q := by simp [modSec, h]

@[simp] theorem modSec_sym (m : Mem) (p : SecRef) (f : Section → Section) :
    (m.modSec p f).sym = m.sym := rfl

@[simp] theorem modSym_sym_self (m : Mem) (p : SymRef) (f : Symbol → Symbol) :
    (m.modSym p f).sym p = f (m.sym p) := by simp [modSym]

@[simp] theorem modSym_sym_of_ne (m : Mem) {p q : SymRef} (f : Symbol → Symbol) (h : q ≠ p) :
    (m.modSym p f).sym q = m.sym q := by simp [modSym, h]

@[simp] theorem modSym_sec (m : Mem) (p : SymRef) (f : Symbol → Symbol) :
    (m.modSym p f).sec = m.sec := rfl

theorem modSec_sec (m : Mem) (p q : SecRef) (f : Section → Section) :
    (m.modSec p f).sec q = if q = p then f (m.sec p) else m.sec q := rfl

theorem modSym_sym (m : Mem) (p q : SymRef) (f : Symbol → Symbol) :
    (m.modSym p f).sym q = if q = p then f (m.sym p) else m.sym q := rfl

end Mem

/-! ## 止まり方 -/

/-- プログラムが途中で止まる理由。 -/
inductive Abort where
  /-- `ERROR()`：終了コード 1。 -/
  | error (msg : String)
  /-- `DIFF_FATAL()`：終了コード 2。 -/
  | diffFatal (msg : String)
  /-- 未定義動作：NULL ポインタをたどる、0 で割る、バッファの外を読み書きする。 -/
  | undefined (what : String)
  /-- 終わらないループ。 -/
  | hang
  deriving DecidableEq, Repr

/-- NULL かもしれないポインタ `p` をたどる。NULL なら未定義動作である。 -/
def deref {α : Type} (p : Option α) (what : String) : Except Abort α :=
  match p with
  | some a => .ok a
  | none => .error (.undefined what)

@[simp] theorem deref_some {α : Type} (a : α) (what : String) : deref (some a) what = .ok a := rfl

@[simp] theorem deref_none {α : Type} (what : String) :
    deref (none : Option α) what = .error (.undefined what) := rfl

/-! ## `common.c` の述語と探索 -/

/-- Modelled from the spec: `is_rela_section`（`common.h`）。リロケーションのセクションは型が `SHT_RELA` のセクションである。 -/
def isRelaSection (s : Section) : Bool := s.sh.shType == SHT_RELA

/-- Modelled from the spec: `is_text_section`（`common.c`）。コードのセクションは、型が `SHT_PROGBITS` で
`SHF_EXECINSTR` を持つ。 -/
def isTextSection (s : Section) : Bool :=
  s.sh.shType == SHT_PROGBITS && (s.sh.shFlags &&& SHF_EXECINSTR) != 0

/-- Modelled from the spec: `is_debug_section`（`common.c`）。名前（リロケーションのセクションでは `base` の名前）が
`.debug_` で始まるセクション（§4.4 の `.debug_*` と `.rela.debug_*`）。 -/
def isDebugSection (m : Mem) (s : Section) : Bool :=
  ".debug_".toList.isPrefixOf (if isRelaSection s then (m.base s).name else s.name).toList

/-- Modelled from the spec: `is_local_sym`（`common.c`）。 -/
def isLocalSym (y : Symbol) : Bool := y.bind == STB_LOCAL

/-- Modelled from the spec: `find_section_by_name`（`common.c`）。リストの先頭から探して最初に見つかるもの。 -/
def findSectionByName (m : Mem) (l : List SecRef) (name : String) : Option SecRef :=
  l.find? fun s => (m.sec s).name == name

/-- Modelled from the spec: `find_section_by_index`（`common.c`）。 -/
def findSectionByIndex (m : Mem) (l : List SecRef) (index : Nat) : Option SecRef :=
  l.find? fun s => (m.sec s).index == index

/-- Modelled from the spec: `find_symbol_by_name`（`common.c`）。 -/
def findSymbolByName (m : Mem) (l : List SymRef) (name : String) : Option SymRef :=
  l.find? fun y => (m.sym y).name == name

/-- `memcmp(a, b, n) == 0`。ローダが読んだバッファの長さは `d_size` なので、比べる範囲はバッファの中にある。 -/
def memEq (a b : List UInt8) (n : Nat) : Bool := a.take n == b.take n

end XspliceDiff

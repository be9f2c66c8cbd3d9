import XspliceDiff.Lemmas.Basic

/-!
# `main` の終わり方

`main` は、変わった関数も新しい大域シンボルもなければ、`xsplice_verify_patchability` より前に `return 3` する。
ここではそれと、出力のモデルと同一性について、モデルを評価した結果を述べる。
-/

namespace XspliceDiff

/-! ## 例で使う外のもの -/

/-- 例で使う命令のデコーダと `struct xsplice_patch_func` の配置：どの命令もリロケーションの位置から
4 バイトで終わるとする。 -/
def exampleTarget : Target :=
  { decode := fun _ offset => some (offset + 4), patchInsnSize := 5,
    layout := { size := 40, oldAddr := 0, newAddr := 8, oldSize := 16, newSize := 20, name := 24, pad := 32,
                padSize := 8 } }

/-- 例で使う、動いているイメージのシンボル表：どの名前も見つかる。 -/
def exampleTable : LookupTable :=
  { lookupGlobal := fun _ => some ⟨0x1000, 16⟩, lookupLocal := fun _ _ => some ⟨0x2000, 16⟩ }

/-! ## 表だけが変わったとき -/

/-- 関数 `f` と大域の表 `tbl` を持つ入力。base はセクション 0（`.text.f`）と 1（`.rodata.tbl`）、
シンボル 0 から 4、patched はセクション 2 と 3、シンボル 5 から 9。`.rodata.tbl` の 1 バイト目が 1 から 2 に
変わり、patched の `f` のコードの先頭は `code` である（base は `0x90`）。 -/
def tableChangeExample (code : UInt8) : Mem :=
  let secs (j : Nat) (c b : UInt8) : List Section :=
    [{ name := ".text.f", sh := { shType := SHT_PROGBITS, shFlags := 6, shSize := 4 },
       data := { dBuf := [c, 0, 0, 0], dSize := 4 }, sym := some (j + 1), secsym := some (j + 3) },
     { name := ".rodata.tbl", sh := { shType := SHT_PROGBITS, shFlags := 2, shSize := 4 },
       data := { dBuf := [b, 0, 0, 0], dSize := 4 }, sym := some (j + 2), secsym := some (j + 4) }]
  let syms (k : Nat) : List Symbol :=
    [{ name := "" },
     { name := "f", type := STT_FUNC, bind := STB_GLOBAL, sec := some k,
       sym := { stInfo := 18, stSize := 4, stShndx := 1 } },
     { name := "tbl", type := STT_OBJECT, bind := STB_GLOBAL, sec := some (k + 1),
       sym := { stInfo := 17, stSize := 4, stShndx := 2 } },
     { name := ".text.f", type := STT_SECTION, sec := some k, sym := { stInfo := 3, stShndx := 1 } },
     { name := ".rodata.tbl", type := STT_SECTION, sec := some (k + 1), sym := { stInfo := 3, stShndx := 2 } }]
  Mem.ofLists (secs 0 0x90 1 ++ secs 5 code 2) (syms 0 ++ syms 2)

/-- `tableChangeExample` の base。 -/
def tableBase : Elf := { sections := [0, 1], symbols := [0, 1, 2, 3, 4] }

/-- `tableChangeExample` の patched。 -/
def tablePatched : Elf := { sections := [2, 3], symbols := [5, 6, 7, 8, 9] }

/-- 表だけが変わったとき、`main` は `return 3` する。そのとき、特別なセクションを作り直した後の状態には、
含めていない `CHANGED` のセクション `.rodata.tbl` がある。 -/
theorem table_change_reported_as_no_change :
    exitCode (xspliceMain exampleTarget exampleTable false (tableChangeExample 0x90) tableBase tablePatched) =
      some 3 ∧
    (do
      let (m, _, _) ← mainPrepare exampleTarget.decode (tableChangeExample 0x90) tableBase tablePatched
      xspliceProcessSpecialSections m tablePatched).toOption.map
      (fun (m : Mem) => ((m.sec 3).status, (m.sec 3).included)) = some (.changed, false) := by
  decide

/-! ## 出力のモデルのリロケーション -/

/-- 関数 `f` が `.rodata` の中の位置 16 をセクションのシンボルで参照し、大域の表 `tbl` が `.rodata` の
`[0, 8)` にあり、`.rela.debug_info` が `tbl` を参照する入力。一つの側のセクションは `k` から
`.text.f`、`.rela.text.f`、`.rodata`、`.debug_info`、`.rela.debug_info`、`.symtab`、シンボルは `j` から
NULL、`x.c`、`f`、`tbl`、`.text.f`、`.rodata`、`.debug_info` の順。base は `k = j = 0`、patched は
`k = 6`、`j = 7` で、`f` のコードの先頭が `0x90` から `0xc3` に変わる。 -/
def debugExample : Mem :=
  let secs (k j : Nat) (code : UInt8) : List Section :=
    [{ name := ".text.f", sh := { shType := SHT_PROGBITS, shFlags := 6, shSize := 4 },
       data := { dBuf := [code, 0, 0, 0], dSize := 4 }, sym := some (j + 2), secsym := some (j + 4),
       rela := some (k + 1), index := 1 },
     { name := ".rela.text.f", sh := { shType := SHT_RELA, shEntsize := 24, shSize := 24 }, data := { dSize := 24 },
       base := some k, index := 2, relas := [{ sym := j + 5, type := R_X86_64_64, offset := 0, addend := 16 }] },
     { name := ".rodata", sh := { shType := SHT_PROGBITS, shFlags := 2, shSize := 24 },
       data := { dBuf := List.replicate 24 7, dSize := 24 }, secsym := some (j + 5), index := 3 },
     { name := ".debug_info", sh := { shType := SHT_PROGBITS, shSize := 8 },
       data := { dBuf := List.replicate 8 0, dSize := 8 }, secsym := some (j + 6), rela := some (k + 4), index := 4 },
     { name := ".rela.debug_info", sh := { shType := SHT_RELA, shEntsize := 24, shSize := 24 }, data := { dSize := 24 },
       base := some (k + 3), index := 5, relas := [{ sym := j + 3, type := R_X86_64_64, offset := 0 }] },
     { name := ".symtab", sh := { shType := 2, shSize := 24 }, data := { dBuf := List.replicate 24 0, dSize := 24 },
       index := 6 }]
  let syms (k : Nat) : List Symbol :=
    [{ name := "" },
     { name := "x.c", type := STT_FILE, sym := { stInfo := 4, stShndx := SHN_ABS } },
     { name := "f", type := STT_FUNC, bind := STB_GLOBAL, sec := some k, sym := { stInfo := 18, stSize := 4, stShndx := 1 } },
     { name := "tbl", type := STT_OBJECT, bind := STB_GLOBAL, sec := some (k + 2),
       sym := { stInfo := 17, stSize := 8, stShndx := 3 } },
     { name := ".text.f", type := STT_SECTION, sec := some k, sym := { stInfo := 3, stShndx := 1 } },
     { name := ".rodata", type := STT_SECTION, sec := some (k + 2), sym := { stInfo := 3, stShndx := 3 } },
     { name := ".debug_info", type := STT_SECTION, sec := some (k + 3), sym := { stInfo := 3, stShndx := 4 } }]
  Mem.ofLists (secs 0 0 0x90 ++ secs 6 7 0xc3) (syms 0 ++ syms 6)

/-- `debugExample` の base。 -/
def debugBase : Elf := { sections := List.range 6, symbols := List.range 7 }

/-- `debugExample` の patched。 -/
def debugPatched : Elf := { sections := (List.range 6).map (· + 6), symbols := (List.range 7).map (· + 7) }

set_option maxRecDepth 4000 in
/-- 確認を通って出力のモデルに移した後、出力の `.rela.debug_info`（セクション 10）は `tbl`（シンボル 10）を
参照するが、`tbl` は出力のシンボルにない。`.rodata` はセクションのシンボルを通して含められ、`tbl` 自身は
含められないからである。`main` は最後まで進んで 0 を返す。 -/
theorem migrate_keeps_relocation_to_dropped_symbol :
    (do
      let (m, _, _) ← mainPrepare exampleTarget.decode debugExample debugBase debugPatched
      let m ← xspliceProcessSpecialSections m debugPatched
      xspliceVerifyPatchability m debugPatched
      let (m, out, _) := xspliceMigrateIncludedElements m debugPatched
      pure (out.sections.contains 10, (m.sec 10).relas.map Rela.sym, out.symbols.contains 10) :
        Except Abort _).toOption = some (true, [10], false) ∧
    exitCode (xspliceMain exampleTarget exampleTable false debugExample debugBase debugPatched) = some 0 := by
  decide

/-! ## 同じオブジェクトどうしの比較 -/

/-- 複製 `foo.constprop.0` と `foo.constprop.1`、`foo.constprop.1` を呼ぶ `bar` を持つオブジェクトの二つの写し。
一つの写しのセクションは `k` から `.text.foo.constprop.0`、`.text.foo.constprop.1`、`.text.bar`、
`.rela.text.bar`、`.symtab`、シンボルは `j` から NULL、`x.c`、三つの関数、三つのセクションのシンボルの順。
base は `k = j = 0`、patched は `k = 5`、`j = 8`。 -/
def cloneCallerExample : Mem :=
  let textSh : Shdr := { shType := SHT_PROGBITS, shFlags := 6, shSize := 4 }
  let secs (k j : Nat) : List Section :=
    [{ name := ".text.foo.constprop.0", sh := textSh, data := { dBuf := [1, 2, 3, 4], dSize := 4 },
       sym := some (j + 2), secsym := some (j + 5), index := 1 },
     { name := ".text.foo.constprop.1", sh := textSh, data := { dBuf := [5, 6, 7, 8], dSize := 4 },
       sym := some (j + 3), secsym := some (j + 6), index := 2 },
     { name := ".text.bar", sh := textSh, data := { dBuf := [0xe8, 0, 0, 0], dSize := 4 },
       sym := some (j + 4), secsym := some (j + 7), rela := some (k + 3), index := 3 },
     { name := ".rela.text.bar", sh := { shType := SHT_RELA, shEntsize := 24, shSize := 24 }, data := { dSize := 24 },
       base := some (k + 2), index := 4, relas := [{ sym := j + 3, type := R_X86_64_PC32, offset := 1, addend := -4 }] },
     { name := ".symtab", sh := { shType := 2, shSize := 24 }, data := { dBuf := List.replicate 24 0, dSize := 24 },
       index := 5 }]
  let syms (k : Nat) : List Symbol :=
    [{ name := "" },
     { name := "x.c", type := STT_FILE, sym := { stInfo := 4, stShndx := SHN_ABS } },
     { name := "foo.constprop.0", type := STT_FUNC, sec := some k, sym := { stInfo := 2, stShndx := 1, stSize := 4 } },
     { name := "foo.constprop.1", type := STT_FUNC, sec := some (k + 1),
       sym := { stInfo := 2, stShndx := 2, stSize := 4 } },
     { name := "bar", type := STT_FUNC, bind := STB_GLOBAL, sec := some (k + 2),
       sym := { stInfo := 18, stShndx := 3, stSize := 4 } },
     { name := ".text.foo.constprop.0", type := STT_SECTION, sec := some k, sym := { stInfo := 3, stShndx := 1 } },
     { name := ".text.foo.constprop.1", type := STT_SECTION, sec := some (k + 1), sym := { stInfo := 3, stShndx := 2 } },
     { name := ".text.bar", type := STT_SECTION, sec := some (k + 2), sym := { stInfo := 3, stShndx := 3 } }]
  Mem.ofLists (secs 0 0 ++ secs 5 8) (syms 0 ++ syms 5)

/-- `cloneCallerExample` の base。 -/
def cloneCallerBase : Elf := { sections := List.range 5, symbols := List.range 8 }

/-- `cloneCallerExample` の patched：base と同じオブジェクトの写し。 -/
def cloneCallerPatched : Elf := { sections := (List.range 5).map (· + 5), symbols := (List.range 8).map (· + 8) }

/-- 同じオブジェクトどうしを比べても、`main` は 3 ではなく `DIFF_FATAL`（終了コード 2）で終わる。
改名が patched の `foo.constprop.1` を `foo.constprop.0` に変えるので、セクションの対がずれる。 -/
theorem identical_objects_end_fatal :
    exitCode (xspliceMain exampleTarget exampleTable false cloneCallerExample cloneCallerBase cloneCallerPatched) =
      some 2 := by
  decide

end XspliceDiff

import XspliceDiff.Lemmas.Main

/-!
# パッチの表と文字列の表（§4.6）

`xsplice_create_patches_sections` は、`CHANGED` の関数ごとに `.xsplice.funcs` の項目を一つ書き、その `new_addr` を
関数に、`name` を `.xsplice.strings` のシンボルの、`offset_of_string` が返す位置に向けるリロケーションを加える。
後で `xsplice_build_strings_section_data` が文字列の表を NUL で区切って並べ、`xsplice_rename_local_symbols` が
局所的なシンボルの名前を `hint#name` にする。二か所の名前の作り方は、名前が空の局所的な関数でだけ食い違う：
表には `hint#` を書くが、改名は名前の空なシンボルを飛ばす。それ以外では、項目 `i` の `name` が指す
文字列は、項目 `i` の `new_addr` が指すシンボルの最後の名前に等しい。
-/

namespace XspliceDiff

/-! ## 文字列の表 -/

/-- `xsplice_build_strings_section_data` が並べるバイト：文字列を挿入の順に、NUL で終えて並べる。 -/
def stringPool (l : List String) : List UInt8 := l.flatMap fun s => cBytes s ++ [0]

/-- C の文字列として書ける名前：どの文字も 1 バイトに収まり、NUL でない。 -/
def CName (s : String) : Prop := ∀ c ∈ s.toList, 0 < c.toNat ∧ c.toNat < 256

instance : DecidablePred CName := fun s => inferInstanceAs (Decidable (∀ c ∈ s.toList, _))

theorem CName.mangle {hint name : String} (hh : CName hint) (hn : CName name) : CName (mangleLocalSymbol hint name) := by
  intro c hc
  change c ∈ (hint.toList ++ ['#']) ++ name.toList at hc
  rcases List.mem_append.mp hc with hc | hc
  · rcases List.mem_append.mp hc with hc | hc
    · exact hh c hc
    · rw [List.mem_singleton.mp hc]; decide
  · exact hn c hc

/-- 文字列の表 `l` の位置 `off` から、`s` のバイトとそれを終える NUL が並ぶ。 -/
def StringAt (l : List String) (off : Nat) (s : String) : Prop :=
  ∃ rest, (stringPool l).drop off = cBytes s ++ 0 :: rest

theorem StringAt.append {l : List String} {off : Nat} {s : String} (h : StringAt l off s) (l' : List String) :
    StringAt (l ++ l') off s := by
  obtain ⟨rest, h⟩ := h
  have hle : off ≤ (stringPool l).length := by
    by_contra hlt
    rw [List.drop_eq_nil_iff.mpr (by omega)] at h
    simp at h
  exact ⟨rest ++ stringPool l', by
    rw [stringPool, List.flatMap_append, ← stringPool, List.drop_append_of_le_length hle, h]; simp [stringPool]⟩

/-- `offset_of_string` は表を後ろに延ばすだけで、返す位置には `name` が並ぶ。 -/
theorem offsetOfString_spec (name : String) :
    ∀ l : List String, (∃ suf, (offsetOfString l name).1 = l ++ suf) ∧
      StringAt (offsetOfString l name).1 (offsetOfString l name).2 name
  | [] => ⟨⟨[name], rfl⟩, [], by simp [offsetOfString, stringPool]⟩
  | s :: ss => by
    by_cases h : s = name
    · subst h
      exact ⟨⟨[], by simp [offsetOfString]⟩, stringPool ss, by simp [offsetOfString, stringPool]⟩
    · obtain ⟨⟨suf, hsuf⟩, rest, hat⟩ := offsetOfString_spec name ss
      refine ⟨⟨suf, by simp [offsetOfString, h, hsuf]⟩, rest, ?_⟩
      have hlen : (cBytes s ++ [0]).length = (cBytes s).length + 1 := by simp
      simp only [offsetOfString, if_neg h, stringPool, List.flatMap_cons]
      rw [← hlen, List.drop_append, ← stringPool, hat]

theorem cBytes_ne_zero {s : String} (hs : CName s) : ∀ b ∈ cBytes s, (b != 0) = true := by
  intro b hb
  obtain ⟨c, hc, rfl⟩ := List.mem_map.mp hb
  obtain ⟨h0, h256⟩ := hs c hc
  have hb : (c.toNat.toUInt8).toNat = c.toNat := UInt8.toNat_ofNat_of_lt h256
  rw [bne_iff_ne]
  rintro h
  rw [h] at hb
  exact absurd hb.symm (by simp; omega)

theorem map_ofNat_cBytes {s : String} (hs : CName s) : (cBytes s).map (fun b => Char.ofNat b.toNat) = s.toList := by
  rw [cBytes, List.map_map]
  conv_rhs => rw [← List.map_id s.toList]
  exact List.map_congr_left fun c hc => by
    simp only [Function.comp, UInt8.toNat_ofNat_of_lt (hs c hc).2, Char.ofNat_toNat, id]

theorem cStringAt_of_stringAt {l : List String} {off : Nat} {s : String} (h : StringAt l off s) (hs : CName s) :
    cStringAt (stringPool l) off = .ok s := by
  obtain ⟨rest, h⟩ := h
  have hne := cBytes_ne_zero hs
  simp only [cStringAt, Int.toNat_ofNat, h, List.takeWhile_append_of_pos hne, List.takeWhile_cons, bne_self_eq_false,
    Bool.false_eq_true, if_false, List.append_nil, map_ofNat_cBytes hs]
  simp

/-! ## 表の項目 -/

/-- 項目 `i` の `new_addr` を埋めるリロケーション：関数 `p` を指す。 -/
def newAddrRela (l : PatchFuncLayout) (i : Nat) (p : SymRef) : Rela :=
  { sym := p, type := R_X86_64_64, offset := i * l.size }

/-- 項目 `i` の `name` を埋めるリロケーション：文字列の表のシンボル `strsym` の位置 `off` を指す。 -/
def nameRela (l : PatchFuncLayout) (strsym : SymRef) (i off : Nat) : Rela :=
  { sym := strsym, type := R_X86_64_64, addend := off, offset := i * l.size + l.name }

/-- `xsplice_create_patches_sections` が表に書く関数の名前：局所的なら `hint#name`。 -/
def funcName (hint : String) (y : Symbol) : String :=
  if y.bind = STB_LOCAL then mangleLocalSymbol hint y.name else y.name

/-- ループの一周は、表の項目と二つのリロケーションを書き、文字列の表に名前を加えるだけである。 -/
theorem patchEntry_ok {tgt : Target} {table : LookupTable} {hint : String} {resolve : Bool} {sp rp strsym : Nat}
    {m m' : Mem} {k k' : Elf} {index index' : Nat} {p : SymRef} (hne : rp ≠ sp)
    (h : patchEntry tgt table hint resolve sp rp strsym (m, k, index) p = .ok (m', k', index')) :
    index' = index + 1 ∧ m'.sym = m.sym ∧ (∀ s, s ≠ sp → s ≠ rp → m'.sec s = m.sec s) ∧
    (∃ d, m'.sec sp = { m.sec sp with data := d }) ∧
    m'.sec rp = { m.sec rp with relas := (m.sec rp).relas ++
      [newAddrRela tgt.layout index p, nameRela tgt.layout strsym index (offsetOfString k.strings (funcName hint (m.sym p))).2] } ∧
    k' = { k with strings := (offsetOfString k.strings (funcName hint (m.sym p))).1 } := by
  dsimp only [patchEntry] at h
  by_cases hloc : (m.sym p).bind = STB_LOCAL
  on_goal 1 => rw [if_pos hloc] at h
  on_goal 2 => rw [if_neg hloc] at h
  all_goals
    split at h <;> simp only [throw_eq_error, error_bind, reduceCtorEq, pure_bind] at h
    split at h <;> simp only [throw_eq_error, error_bind, reduceCtorEq, pure_bind, pure_eq_ok, Except.ok.injEq,
      Prod.mk.injEq] at h
    obtain ⟨rfl, rfl, rfl⟩ := h
    refine ⟨rfl, rfl, fun s h1 h2 => by rw [Mem.modSec_sec_of_ne _ _ h2, Mem.modSec_sec_of_ne _ _ h1],
      ⟨_, by rw [Mem.modSec_sec_of_ne _ _ (Ne.symm hne), Mem.modSec_sec_self]⟩, ?_,
      by simp only [funcName, hloc, if_true, if_false]⟩
    simp only [Mem.modSec_sec_self, Mem.modSec_sec_of_ne _ _ hne, funcName, hloc, if_true, if_false]
    rfl

/-- リロケーションの列 `relas` は、関数の列 `ps` の表の項目を順に埋める：項目 `i` の `new_addr` は `ps[i]` を
指し、`name` は `Q off ps[i]` を満たす位置 `off` を指す。 -/
def PatchRelas (l : PatchFuncLayout) (strsym : SymRef) (Q : Nat → SymRef → Prop) (ps : List SymRef)
    (relas : List Rela) : Prop :=
  relas.length = 2 * ps.length ∧
  ∀ i (h : i < ps.length), relas[2 * i]? = some (newAddrRela l i ps[i]) ∧
    ∃ off, relas[2 * i + 1]? = some (nameRela l strsym i off) ∧ Q off ps[i]

namespace PatchRelas

variable {l : PatchFuncLayout} {strsym : SymRef} {Q Q' : Nat → SymRef → Prop} {ps : List SymRef} {relas : List Rela}

theorem nil : PatchRelas l strsym Q [] [] := ⟨rfl, fun _ h => absurd h (Nat.not_lt_zero _)⟩

theorem mono (h : PatchRelas l strsym Q ps relas) (hQ : ∀ off, ∀ p ∈ ps, Q off p → Q' off p) :
    PatchRelas l strsym Q' ps relas :=
  ⟨h.1, fun i hi => (h.2 i hi).imp_right fun ⟨off, hr, hq⟩ => ⟨off, hr, hQ _ _ (List.getElem_mem hi) hq⟩⟩

theorem snoc (h : PatchRelas l strsym Q ps relas) {p : SymRef} {off : Nat} (hq : Q off p) :
    PatchRelas l strsym Q (ps ++ [p]) (relas ++ [newAddrRela l ps.length p, nameRela l strsym ps.length off]) := by
  obtain ⟨hlen, hent⟩ := h
  refine ⟨by simp [hlen]; omega, fun i hi => ?_⟩
  rw [List.length_append, List.length_singleton] at hi
  rcases Nat.lt_succ_iff_lt_or_eq.mp hi with hi | rfl
  · obtain ⟨h1, off', h2, hq'⟩ := hent i hi
    rw [List.getElem_append_left hi, List.getElem?_append_left (by omega), List.getElem?_append_left (by omega)]
    exact ⟨h1, off', h2, hq'⟩
  · rw [List.getElem_append_right (le_refl _), List.getElem?_append_right (by omega),
      List.getElem?_append_right (by omega), hlen]
    simpa using ⟨off, rfl, hq⟩

end PatchRelas

/-- `xsplice_create_patches_sections` のループの不変条件：関数の列 `ps` を書いた後、シンボルと他のセクションは
変わらず、`.xsplice.funcs` は中身だけが、リロケーションのセクションはリロケーションだけが変わり、ELF は文字列の表
だけが変わって、リロケーションは `ps` の項目を、名前が文字列の表に並ぶ位置とともに埋める。 -/
structure Emitted (tgt : Target) (hint : String) (sp rp strsym : Nat) (m0 : Mem) (k0 : Elf) (ps : List SymRef)
    (acc : Mem × Elf × Nat) : Prop where
  index : acc.2.2 = ps.length
  sym : acc.1.sym = m0.sym
  sec : ∀ s, s ≠ sp → s ≠ rp → acc.1.sec s = m0.sec s
  funcs : ∃ d, acc.1.sec sp = { m0.sec sp with data := d }
  relaSec : { acc.1.sec rp with relas := [] } = { m0.sec rp with relas := [] }
  elf : acc.2.1 = { k0 with strings := acc.2.1.strings }
  relas : PatchRelas tgt.layout strsym (fun off p => StringAt acc.2.1.strings off (funcName hint (m0.sym p))) ps
    (acc.1.sec rp).relas

theorem Emitted.step {tgt : Target} {table : LookupTable} {hint : String} {resolve : Bool} {sp rp strsym : Nat}
    {m0 : Mem} {k0 : Elf} {ps : List SymRef} {acc acc' : Mem × Elf × Nat} {p : SymRef} (hne : rp ≠ sp)
    (hinv : Emitted tgt hint sp rp strsym m0 k0 ps acc)
    (h : patchEntry tgt table hint resolve sp rp strsym acc p = .ok acc') :
    Emitted tgt hint sp rp strsym m0 k0 (ps ++ [p]) acc' := by
  obtain ⟨m, k, n⟩ := acc
  obtain ⟨m', k', n'⟩ := acc'
  obtain ⟨rfl, hsym, hsec, ⟨d', hsp⟩, hrp, rfl⟩ := patchEntry_ok hne h
  obtain ⟨suf, hsuf⟩ := (offsetOfString_spec (funcName hint (m.sym p)) k.strings).1
  obtain ⟨hindex, hsym0, hsec0, ⟨d, hsp0⟩, hrp0, helf, hrel⟩ := hinv
  dsimp only at *
  subst hindex
  refine ⟨by simp, hsym.trans hsym0, fun s h1 h2 => (hsec s h1 h2).trans (hsec0 s h1 h2), ⟨d', by rw [hsp, hsp0]⟩,
    by rw [hrp]; exact hrp0, by rw [helf], ?_⟩
  · rw [hrp, hsuf]
    refine (hrel.mono fun off q _ hq => hq.append suf).snoc ?_
    rw [← hsym0, ← hsuf]
    exact (offsetOfString_spec _ _).2

theorem Emitted.foldlM {tgt : Target} {table : LookupTable} {hint : String} {resolve : Bool} {sp rp strsym : Nat}
    {m0 : Mem} {k0 : Elf} (hne : rp ≠ sp) :
    ∀ (L ps : List SymRef) (acc acc' : Mem × Elf × Nat), Emitted tgt hint sp rp strsym m0 k0 ps acc →
      L.foldlM (patchEntry tgt table hint resolve sp rp strsym) acc = .ok acc' →
      Emitted tgt hint sp rp strsym m0 k0 (ps ++ L) acc'
  | [], ps, acc, acc', hinv, h => by
    cases h
    simpa using hinv
  | p :: L, ps, acc, acc', hinv, h => by
    obtain ⟨acc1, h1, h2⟩ := bind_eq_ok.mp h
    simpa using Emitted.foldlM hne L (ps ++ [p]) acc1 acc' (hinv.step hne h1) h2

theorem createSectionPair_spec {m m' : Mem} {kelf kelf' : Elf} {name : String} {entsize nr : Nat} {sp : SecRef}
    (h : createSectionPair m kelf name entsize nr = (m', kelf', sp)) :
    sp = m.nsec ∧ kelf' = { kelf with sections := kelf.sections ++ [m.nsec, m.nsec + 1] } ∧ m'.sym = m.sym ∧
      (∀ s < m.nsec, m'.sec s = m.sec s) ∧ (m'.sec m.nsec).name = name ∧ (m'.sec m.nsec).rela = some (m.nsec + 1) ∧
      (m'.sec (m.nsec + 1)).relas = [] := by
  simp only [createSectionPair, Prod.mk.injEq] at h
  obtain ⟨rfl, rfl, rfl⟩ := h
  refine ⟨rfl, rfl, rfl, fun s hs => ?_, ?_, ?_, ?_⟩
  · simp [Mem.allocSec, Mem.modSec, Nat.ne_of_lt hs, Nat.ne_of_lt (Nat.lt_succ_of_lt hs)]
  all_goals simp [Mem.allocSec, Mem.modSec]

/-- `xsplice_create_patches_sections` が成功すれば、文字列の表のシンボルが見つかり、新しい二つのセクションの
リロケーションは、`CHANGED` の関数の項目を順に、名前が文字列の表に並ぶ位置とともに埋める。 -/
theorem createPatchesSections_ok {tgt : Target} {table : LookupTable} {hint : String} {resolve : Bool}
    {m0 m1 : Mem} {k0 k1 : Elf} (h : xspliceCreatePatchesSections tgt table hint resolve m0 k0 = .ok (m1, k1)) :
    ∃ strsym, findSymbolByName m0 k0.symbols ".xsplice.strings" = some strsym ∧
      m1.sym = m0.sym ∧ (∀ s < m0.nsec, m1.sec s = m0.sec s) ∧
      (m1.sec m0.nsec).name = ".xsplice.funcs" ∧ (m1.sec m0.nsec).rela = some (m0.nsec + 1) ∧
      k1 = { k0 with sections := k0.sections ++ [m0.nsec, m0.nsec + 1], strings := k1.strings } ∧
      PatchRelas tgt.layout strsym (fun off p => StringAt k1.strings off (funcName hint (m0.sym p)))
        (k0.symbols.filter fun p => (m0.sym p).type == STT_FUNC && (m0.sym p).status == .changed)
        (m1.sec (m0.nsec + 1)).relas := by
  dsimp only [xspliceCreatePatchesSections] at h
  generalize hcp : createSectionPair m0 k0 _ _ _ = cp at h
  obtain ⟨mA, kA, sp⟩ := cp
  obtain ⟨rfl, rfl, hsymA, hsecA, hname, hrela, hnil⟩ := createSectionPair_spec hcp
  have hfindA : findSymbolByName mA k0.symbols = findSymbolByName m0 k0.symbols := by
    unfold findSymbolByName; rw [hsymA]
  dsimp only at h
  rw [hrela, Option.getD_some, hfindA] at h
  split at h
  · rename_i strsym hfind
    obtain ⟨⟨mB, kB, n⟩, hfold, h⟩ := bind_eq_ok.mp h
    split at h
    · cases h
    obtain ⟨rfl, rfl⟩ := Prod.mk.inj (Except.ok.inj h)
    have hinit : Emitted tgt hint m0.nsec (m0.nsec + 1) strsym mA { k0 with sections := k0.sections ++ [m0.nsec, m0.nsec + 1] } []
        (mA, { k0 with sections := k0.sections ++ [m0.nsec, m0.nsec + 1] }, 0) :=
      ⟨rfl, rfl, fun _ _ _ => rfl, ⟨_, rfl⟩, rfl, rfl, by rw [hnil]; exact PatchRelas.nil⟩
    obtain ⟨-, hsym, hsec, ⟨d, hsp⟩, -, helf, hrel⟩ := Emitted.foldlM (Nat.succ_ne_self _) _ _ _ _ hinit hfold
    refine ⟨strsym, hfind, hsym.trans hsymA, fun s hs => ?_, by rw [hsp]; exact hname, by rw [hsp]; exact hrela, helf, ?_⟩
    · rw [hsec s (Nat.ne_of_lt hs) (Nat.ne_of_lt (Nat.lt_succ_of_lt hs)), hsecA s hs]
    · simpa only [hsymA, List.nil_append] using hrel
  · cases h

/-! ## 文字列の表を作り、名前を変える -/

theorem find?_append_fresh {α : Type} {p : α → Bool} {l rest : List α} {x : α} (hl : ∀ y ∈ l, p y = false)
    (hx : p x = true) : (l ++ x :: rest).find? p = some x := by
  rw [List.find?_append, List.find?_eq_none.mpr fun y hy => by simp [hl y hy], Option.none_or,
    List.find?_cons_of_pos _ hx]

theorem createStringsElements_spec (m : Mem) (out : Elf) :
    (xspliceCreateStringsElements m out).1.nsec = m.nsec + 1 ∧
    (∀ s < m.nsec, (xspliceCreateStringsElements m out).1.sec s = m.sec s) ∧
    ((xspliceCreateStringsElements m out).1.sec m.nsec).name = ".xsplice.strings" ∧
    (∀ p < m.nsym, (xspliceCreateStringsElements m out).1.sym p = m.sym p) ∧
    ((xspliceCreateStringsElements m out).1.sym m.nsym).name = ".xsplice.strings" ∧
    ((xspliceCreateStringsElements m out).1.sym m.nsym).type = STT_SECTION ∧
    ((xspliceCreateStringsElements m out).1.sym m.nsym).sec = some m.nsec ∧
    (xspliceCreateStringsElements m out).2 =
      { out with sections := out.sections ++ [m.nsec], symbols := out.symbols ++ [m.nsym] } := by
  refine ⟨rfl, fun s hs => ?_, ?_, fun p hp => ?_, ?_, ?_, ?_, rfl⟩ <;>
    simp [xspliceCreateStringsElements, Mem.allocSec, Mem.allocSym, Nat.ne_of_lt, *]

theorem buildStringsSectionData_ok {m m' : Mem} {kelf : Elf} (h : xspliceBuildStringsSectionData m kelf = .ok m') :
    ∃ sp, findSectionByName m kelf.sections ".xsplice.strings" = some sp ∧
      m' = m.modSec sp fun x => { x with data := { dBuf := stringPool kelf.strings, dSize := (stringPool kelf.strings).length } } := by
  dsimp only [xspliceBuildStringsSectionData] at h
  split at h
  · exact ⟨_, ‹_›, (Except.ok.inj h).symm⟩
  · cases h

/-- `xsplice_rename_local_symbols` の一周の後のシンボル。 -/
def renamedSymbol (hint : String) (y : Symbol) : Symbol :=
  if y.name = "" ∨ (y.type ≠ STT_FUNC ∧ y.type ≠ STT_OBJECT) ∨ y.bind ≠ STB_LOCAL then y
  else { y with name := mangleLocalSymbol hint y.name }

theorem renamedSymbol_eq (hint : String) (y : Symbol) : ∃ n, renamedSymbol hint y = { y with name := n } := by
  unfold renamedSymbol; split_ifs <;> exact ⟨_, rfl⟩

theorem renamedSymbol_name {hint : String} {y : Symbol} (ht : y.type = STT_FUNC) (hl : y.bind = STB_LOCAL → y.name ≠ "") :
    (renamedSymbol hint y).name = funcName hint y := by
  unfold renamedSymbol funcName
  by_cases hb : y.bind = STB_LOCAL
  · simp [ht, hb, hl hb]
  · simp [hb]

theorem renameLocalSymbols_sec (m : Mem) (kelf : Elf) (hint : String) :
    (xspliceRenameLocalSymbols m kelf hint).sec = m.sec :=
  Mem.foldl_sec_eq (fun m q => by dsimp only; split_ifs <;> rfl) _ _

theorem renameLocalSymbols_sym {m : Mem} {kelf : Elf} {hint : String} (hnd : kelf.symbols.Nodup) (p : SymRef) :
    (xspliceRenameLocalSymbols m kelf hint).sym p = if p ∈ kelf.symbols then renamedSymbol hint (m.sym p) else m.sym p := by
  obtain ⟨_, _, _, L, _⟩ := kelf
  unfold xspliceRenameLocalSymbols
  dsimp only at hnd ⊢
  induction L generalizing m with
  | nil => simp
  | cons q L ih =>
    obtain ⟨hq, hnd⟩ := List.nodup_cons.mp hnd
    rw [List.foldl_cons, ih hnd]
    by_cases hp : p = q
    · subst hp
      simp only [hq, if_false, List.mem_cons_self, if_true, renamedSymbol]
      split_ifs <;> simp
    · have hstep : (if (m.sym q).name = "" ∨ ((m.sym q).type ≠ STT_FUNC ∧ (m.sym q).type ≠ STT_OBJECT) ∨ (m.sym q).bind ≠ STB_LOCAL then m
          else m.modSym q fun y => { y with name := mangleLocalSymbol hint y.name }).sym p = m.sym p := by
        split_ifs <;> simp [hp]
      simp only [hstep, List.mem_cons, hp, false_or]

theorem CName.funcName {hint : String} {y : Symbol} (hh : CName hint) (hn : CName y.name) : CName (funcName hint y) := by
  unfold XspliceDiff.funcName; split_ifs
  · exact hh.mangle hn
  · exact hn

/-! ## 表の名前は文字列の表の中にある -/

/-- 出力のモデル `out` の参照が確保されたものを指し、シンボルが重ならず、`.xsplice.strings` の名前の要素がまだなく、
`hint` と `CHANGED` の関数の名前が C の文字列で、名前が空の局所的な関数を変えていなければ、
`xsplice_create_strings_elements` から `xsplice_rename_local_symbols` までを終えた後：`.xsplice.strings` は
セクション `m.nsec` でそのシンボルは `m.nsym`、`.xsplice.funcs` は `m.nsec + 1` でリロケーションのセクションは
`m.nsec + 2` であり、そのリロケーションは `CHANGED` の関数の数の二倍で、項目 `i` の `new_addr` は `i` 番目の
`CHANGED` の関数を、`name` は `.xsplice.strings` の中の、その関数の最後の名前を終える NUL の前の位置を指す。 -/
theorem patch_table_names_in_pool {tgt : Target} {table : LookupTable} {hint : String} {resolve : Bool}
    {m m1 m2 : Mem} {out out1 : Elf}
    (hsyms : ∀ p ∈ out.symbols, p < m.nsym) (hsecs : ∀ s ∈ out.sections, s < m.nsec) (hnodup : out.symbols.Nodup)
    (hfree : ∀ p ∈ out.symbols, (m.sym p).name ≠ ".xsplice.strings")
    (hfreeSec : ∀ s ∈ out.sections, (m.sec s).name ≠ ".xsplice.strings")
    (hhint : CName hint)
    (hnames : ∀ p ∈ out.symbols, (m.sym p).type = STT_FUNC → (m.sym p).status = .changed →
      CName (m.sym p).name ∧ ((m.sym p).bind = STB_LOCAL → (m.sym p).name ≠ ""))
    (hpatch : xspliceCreatePatchesSections tgt table hint resolve (xspliceCreateStringsElements m out).1
      (xspliceCreateStringsElements m out).2 = .ok (m1, out1))
    (hbuild : xspliceBuildStringsSectionData m1 out1 = .ok m2) :
    let m3 := xspliceRenameLocalSymbols m2 out1 hint
    (m3.sec m.nsec).name = ".xsplice.strings" ∧ (m3.sym m.nsym).type = STT_SECTION ∧
    (m3.sym m.nsym).sec = some m.nsec ∧
    (m3.sec (m.nsec + 1)).name = ".xsplice.funcs" ∧ (m3.sec (m.nsec + 1)).rela = some (m.nsec + 2) ∧
    PatchRelas tgt.layout m.nsym (fun off p => cStringAt (m3.sec m.nsec).data.dBuf off = .ok (m3.sym p).name)
      (out.symbols.filter fun p => (m.sym p).type == STT_FUNC && (m.sym p).status == .changed)
      (m3.sec (m.nsec + 2)).relas := by
  intro m3
  obtain ⟨hn0, hsec0, hname0, hsym0, hyname0, hytype0, hysec0, hk0⟩ := createStringsElements_spec m out
  obtain ⟨strsym, hfind, hsym1, hsec1, hname1, hrela1, hk1, hrel⟩ := createPatchesSections_ok hpatch
  rw [hk0] at hfind hk1 hrel
  rw [hn0] at hsec1 hname1 hrela1 hk1 hrel
  obtain ⟨ss, hfindS, hm2⟩ := buildStringsSectionData_ok hbuild
  have hsecs1 : out1.sections = out.sections ++ [m.nsec] ++ [m.nsec + 1, m.nsec + 1 + 1] := by rw [hk1]
  have hsyms1 : out1.symbols = out.symbols ++ [m.nsym] := by rw [hk1]
  -- `.xsplice.strings` の名前を持つのは、`xsplice_create_strings_elements` が作ったものだけである
  have hstr : strsym = m.nsym := Option.some.inj <| hfind.symm.trans <| find?_append_fresh
    (fun p hp => by rw [hsym0 p (hsyms p hp)]; simpa using hfree p hp) (by simpa using hyname0)
  have hss : ss = m.nsec := by
    rw [hsecs1, List.append_assoc, List.singleton_append] at hfindS
    exact Option.some.inj <| hfindS.symm.trans <| find?_append_fresh
      (fun s hs => by rw [hsec1 s (Nat.lt_succ_of_lt (hsecs s hs)), hsec0 s (hsecs s hs)]; simpa using hfreeSec s hs)
      (by rw [hsec1 m.nsec (by omega), hname0]; rfl)
  subst hstr hss
  have hnd1 : out1.symbols.Nodup := by
    rw [hsyms1]
    exact hnodup.append (List.nodup_singleton _) fun p hp hp' => by
      rw [List.mem_singleton.mp hp'] at hp; exact Nat.lt_irrefl _ (hsyms _ hp)
  have hm3sec : m3.sec = m2.sec := renameLocalSymbols_sec _ _ _
  have hm3other : ∀ q, q ≠ m.nsec → m3.sec q = m1.sec q := fun q hq => by
    rw [hm3sec, hm2, Mem.modSec_sec_of_ne _ _ hq]
  have hm3sym : ∀ p ∈ out1.symbols, m3.sym p = renamedSymbol hint ((xspliceCreateStringsElements m out).1.sym p) := by
    intro p hp
    rw [renameLocalSymbols_sym hnd1, if_pos hp, hm2, Mem.modSec_sym, hsym1]
  obtain ⟨n, hn⟩ : ∃ n, m3.sym m.nsym = { (xspliceCreateStringsElements m out).1.sym m.nsym with name := n } := by
    rw [hm3sym _ (by simp [hsyms1])]; exact renamedSymbol_eq _ _
  refine ⟨?_, by rw [hn]; exact hytype0, by rw [hn]; exact hysec0, ?_, ?_, ?_⟩
  · rw [hm3sec, hm2, Mem.modSec_sec_self, hsec1 m.nsec (by omega), hname0]
  · rw [hm3other (m.nsec + 1) (by omega), hname1]
  · rw [hm3other (m.nsec + 1) (by omega), hrela1]
  · have hfilter : ((out.symbols ++ [m.nsym]).filter fun p => ((xspliceCreateStringsElements m out).1.sym p).type == STT_FUNC &&
        ((xspliceCreateStringsElements m out).1.sym p).status == .changed) =
        out.symbols.filter fun p => (m.sym p).type == STT_FUNC && (m.sym p).status == .changed := by
      have hsec : (((xspliceCreateStringsElements m out).1.sym m.nsym).type == STT_FUNC) = false := by
        rw [hytype0]; decide
      simp only [List.filter_append, List.filter_singleton, hsec, Bool.false_and, cond_false, List.append_nil]
      exact List.filter_congr fun p hp => by rw [hsym0 p (hsyms p hp)]
    rw [hfilter] at hrel
    rw [hm3other (m.nsec + 1 + 1) (by omega)]
    refine hrel.mono fun off p hp hat => ?_
    obtain ⟨hpout, hch⟩ := List.mem_filter.mp hp
    simp only [Bool.and_eq_true, beq_iff_eq] at hch
    obtain ⟨hcn, hloc⟩ := hnames p hpout hch.1 hch.2
    rw [hm3sec, hm2, Mem.modSec_sec_self, hm3sym p (by rw [hsyms1]; exact List.mem_append_left _ hpout),
      hsym0 p (hsyms p hpout), renamedSymbol_name hch.1 hloc]
    rw [hsym0 p (hsyms p hpout)] at hat
    exact cStringAt_of_stringAt hat (hhint.funcName hcn)

/-- 局所的な `f` と大域的な `g` を変えた出力のモデル。 -/
def twoFunctionExample : Mem := Mem.ofLists
  [{ name := ".text.f", sh := { shType := SHT_PROGBITS, shFlags := 6, shSize := 16 }, sym := some 0, included := true },
   { name := ".text.g", sh := { shType := SHT_PROGBITS, shFlags := 6, shSize := 16 }, sym := some 1, included := true }]
  [{ name := "f", type := STT_FUNC, bind := STB_LOCAL, status := .changed, sec := some 0, sym := { stSize := 16 } },
   { name := "g", type := STT_FUNC, bind := STB_GLOBAL, status := .changed, sec := some 1, sym := { stSize := 16 } }]

/-- `twoFunctionExample` の ELF：セクション 0 と 1、シンボル 0 と 1。 -/
def twoFunctionOut : Elf := { sections := [0, 1], symbols := [0, 1] }

theorem two_function_patch_table :
    ∃ m1 out1 m2, xspliceCreatePatchesSections exampleTarget exampleTable "patch.c" false
        (xspliceCreateStringsElements twoFunctionExample twoFunctionOut).1
        (xspliceCreateStringsElements twoFunctionExample twoFunctionOut).2 = .ok (m1, out1) ∧
      xspliceBuildStringsSectionData m1 out1 = .ok m2 ∧
      PatchRelas exampleTarget.layout 2
        (fun off p => cStringAt ((xspliceRenameLocalSymbols m2 out1 "patch.c").sec 2).data.dBuf off =
          .ok ((xspliceRenameLocalSymbols m2 out1 "patch.c").sym p).name)
        [0, 1] ((xspliceRenameLocalSymbols m2 out1 "patch.c").sec 4).relas :=
  ⟨_, _, _, rfl, rfl, (@patch_table_names_in_pool exampleTarget exampleTable "patch.c" false twoFunctionExample _ _
    twoFunctionOut _ (by decide) (by decide) (by decide) (by decide) (by decide) (by decide) (by decide) rfl rfl).2.2.2.2.2⟩

/-- 名前が空の局所的な関数だけを変えた出力のモデル。 -/
def emptyNameExample : Mem := Mem.ofLists
  [{ name := ".text", sh := { shType := SHT_PROGBITS, shFlags := 6, shSize := 16 }, included := true }]
  [{ name := "", type := STT_FUNC, bind := STB_LOCAL, status := .changed, sec := some 0, sym := { stSize := 16 } }]

/-- `emptyNameExample` の ELF：セクション 0 とシンボル 0。 -/
def emptyNameOut : Elf := { sections := [0], symbols := [0] }

/-- `emptyNameExample` で、`xsplice_create_strings_elements` から `xsplice_rename_local_symbols` までを終えたメモリ。 -/
def emptyNameRun : Option Mem :=
  match xspliceCreatePatchesSections exampleTarget exampleTable "patch.c" false
      (xspliceCreateStringsElements emptyNameExample emptyNameOut).1
      (xspliceCreateStringsElements emptyNameExample emptyNameOut).2 with
  | .ok (m1, out1) => (xspliceBuildStringsSectionData m1 out1).toOption.map fun m2 =>
    xspliceRenameLocalSymbols m2 out1 "patch.c"
  | .error _ => none

/-- 表の項目は関数 0 と、文字列の表の位置 0 を指し、そこには `patch.c#` が並ぶ。改名は名前の空な関数を飛ばすので、
関数の最後の名前は空のままである。 -/
theorem empty_local_name_not_in_pool :
    emptyNameRun.map (fun m => ((m.sec 3).relas.map fun rela => (rela.sym, rela.offset, rela.addend),
      (m.sec 1).data.dBuf, (m.sym 0).name)) =
    some ([(0, 0, 0), (1, 24, 0)], cBytes "patch.c#" ++ [0], "") := by
  decide

end XspliceDiff

import XspliceDiff.Lemmas.Patches

/-!
# `.xsplice.funcs` の項目を読むと、書いた値が返る（§4.6）

`create_section_pair` は `sizeof(*funcs) * nr` バイトのバッファを作り、`xsplice_create_patches_sections` は
`CHANGED` の関数ごとに、その `index` 番目の `struct xsplice_patch_func` に `old_addr`、`old_size`、`new_addr`、
`new_size`、`pad` をこの順に書く。構造体の欄が項目の中にあって互いに重ならなければ（C の構造体の配置）、
書き終えたバッファの項目 `i` をリトルエンディアンで読むと、`i` 番目の関数について書いた値が返る：
後の欄と後の項目を書いても、前に書いた欄は変わらない。
-/

namespace XspliceDiff

/-! ## リトルエンディアンの読み書き -/

/-- バッファの位置 `off` から `width` バイトを、リトルエンディアンの数として読む（ローダが構造体の欄を読む見方）。
バッファの外は 0 と読む。 -/
def readLE (buf : List UInt8) (off : Nat) : Nat → Nat
  | 0 => 0
  | w + 1 => (buf.getD off 0).toNat + 256 * readLE buf (off + 1) w

theorem writeLE_succ (buf : List UInt8) (off w value : Nat) :
    writeLE buf off (w + 1) value = (writeLE buf off w value).set (off + w) (value / 256 ^ w).toUInt8 := by
  simp [writeLE, List.range_succ]

@[simp] theorem writeLE_length (buf : List UInt8) (off width value : Nat) :
    (writeLE buf off width value).length = buf.length := by
  induction width with
  | zero => rfl
  | succ w ih => rw [writeLE_succ, List.length_set, ih]

theorem getElem?_writeLE (buf : List UInt8) (off width value j : Nat) :
    (writeLE buf off width value)[j]? =
      if off ≤ j ∧ j < off + width then buf[j]?.map fun _ => (value / 256 ^ (j - off)).toUInt8 else buf[j]? := by
  induction width with
  | zero => rw [if_neg (by omega)]; rfl
  | succ w ih =>
    rw [writeLE_succ, List.getElem?_set, writeLE_length, ih]
    by_cases hj : off + w = j
    · subst hj
      by_cases hl : off + w < buf.length
      · simp [hl]
      · simp [hl, List.getElem?_eq_none_iff.mpr (Nat.le_of_not_lt hl)]
    · rw [if_neg hj]
      by_cases hin : off ≤ j ∧ j < off + w
      · rw [if_pos hin, if_pos (by omega)]
      · rw [if_neg hin, if_neg (by omega)]

theorem readLE_congr {buf buf' : List UInt8} {off width : Nat} (h : ∀ k < width, buf'[off + k]? = buf[off + k]?) :
    readLE buf' off width = readLE buf off width := by
  induction width generalizing off with
  | zero => rfl
  | succ w ih =>
    simp only [readLE, List.getD_eq_getElem?_getD]
    rw [show buf'[off]? = buf[off]? from h 0 (Nat.succ_pos w),
      ih fun k hk => by rw [Nat.add_right_comm, Nat.add_assoc]; exact h (k + 1) (by omega)]

/-- 範囲に `value` の下位のバイトが並んでいれば、読むと `value` の下位 `width` バイトが返る。 -/
theorem readLE_of_bytes {buf : List UInt8} {off width value : Nat}
    (h : ∀ k < width, buf[off + k]? = some (value / 256 ^ k).toUInt8) : readLE buf off width = value % 256 ^ width := by
  induction width generalizing off value with
  | zero => simp [readLE, Nat.mod_one]
  | succ w ih =>
    have h0 : (buf.getD off 0).toNat = value % 256 := by
      rw [List.getD_eq_getElem?_getD, show buf[off]? = _ from h 0 (Nat.succ_pos w), Option.getD_some, Nat.pow_zero,
        Nat.div_one]
      rfl
    have hrest : readLE buf (off + 1) w = value / 256 % 256 ^ w := ih fun k hk => by
      rw [Nat.add_right_comm, Nat.add_assoc, h (k + 1) (by omega), Nat.div_div_eq_div_mul, ← Nat.pow_succ']
    rw [readLE, h0, hrest, Nat.pow_succ', Nat.mod_mul]

theorem readLE_writeLE_self {buf : List UInt8} {off width value : Nat} (h : off + width ≤ buf.length) :
    readLE (writeLE buf off width value) off width = value % 256 ^ width :=
  readLE_of_bytes fun k hk => by
    rw [getElem?_writeLE, if_pos (by omega), List.getElem?_eq_getElem (by omega), Option.map_some',
      Nat.add_sub_cancel_left]

theorem readLE_writeLE_of_apart {buf : List UInt8} {off width off' width' value : Nat}
    (h : off + width ≤ off' ∨ off' + width' ≤ off) :
    readLE (writeLE buf off' width' value) off width = readLE buf off width :=
  readLE_congr fun k hk => by rw [getElem?_writeLE, if_neg (by omega)]

/-! ## 欄を順に書く -/

/-- 範囲 `[a.1, a.1 + a.2)` と `[b.1, b.1 + b.2)` が重ならない。 -/
def Apart (a b : Nat × Nat) : Prop := a.1 + a.2 ≤ b.1 ∨ b.1 + b.2 ≤ a.1

instance : DecidableRel Apart := fun _ _ => inferInstanceAs (Decidable (_ ∨ _))

/-- 項目の先頭 `e` から、欄（位置と幅）に値を順に書く。 -/
def writeFields (buf : List UInt8) (e : Nat) (fs : List ((Nat × Nat) × Nat)) : List UInt8 :=
  fs.foldl (fun buf f => writeLE buf (e + f.1.1) f.1.2 f.2) buf

section WriteFields

variable {buf : List UInt8} {e : Nat} {fs : List ((Nat × Nat) × Nat)}

@[simp] theorem writeFields_length : (writeFields buf e fs).length = buf.length := by
  induction fs generalizing buf with
  | nil => rfl
  | cons f fs ih => exact ih.trans (writeLE_length ..)

theorem readLE_writeFields_of_apart {off width : Nat} (h : ∀ f ∈ fs, Apart (off, width) (e + f.1.1, f.1.2)) :
    readLE (writeFields buf e fs) off width = readLE buf off width := by
  induction fs generalizing buf with
  | nil => rfl
  | cons f fs ih =>
    rw [writeFields, List.foldl_cons, ← writeFields, ih fun g hg => h g (List.mem_cons_of_mem f hg),
      readLE_writeLE_of_apart (h f (List.mem_cons_self f fs))]

theorem readLE_writeFields_mem (hfs : (fs.map Prod.fst).Pairwise Apart)
    (hb : ∀ f ∈ fs, e + f.1.1 + f.1.2 ≤ buf.length) {f : (Nat × Nat) × Nat} (hf : f ∈ fs) :
    readLE (writeFields buf e fs) (e + f.1.1) f.1.2 = f.2 % 256 ^ f.1.2 := by
  induction fs generalizing buf with
  | nil => cases hf
  | cons g fs ih =>
    rw [List.map_cons, List.pairwise_cons] at hfs
    rw [writeFields, List.foldl_cons, ← writeFields]
    rcases List.mem_cons.mp hf with rfl | hf
    · rw [readLE_writeFields_of_apart fun g hg => ?_, readLE_writeLE_self (hb f (List.mem_cons_self f fs))]
      have := hfs.1 g.1 (List.mem_map_of_mem Prod.fst hg)
      unfold Apart at this ⊢
      omega
    · exact ih hfs.2 (fun g hg => (writeLE_length ..).symm ▸ hb g (List.mem_cons_of_mem _ hg)) hf

end WriteFields

/-! ## `struct xsplice_patch_func` の項目 -/

/-- `xsplice_create_patches_sections` が項目に書く欄の位置と幅：`old_addr`、`old_size`、`new_addr`、`new_size`、
`pad` の順。`name` は書かず、リロケーションが埋める。 -/
def PatchFuncLayout.written (l : PatchFuncLayout) : List (Nat × Nat) :=
  [(l.oldAddr, 8), (l.oldSize, 4), (l.newAddr, 8), (l.newSize, 4), (l.pad, l.padSize)]

/-- C の構造体の配置：書く欄はどれも項目の中にあり、互いに重ならない。 -/
def PatchFuncLayout.Fits (l : PatchFuncLayout) : Prop :=
  (∀ f ∈ l.written, f.1 + f.2 ≤ l.size) ∧ l.written.Pairwise Apart

instance (l : PatchFuncLayout) : Decidable l.Fits := inferInstanceAs (Decidable (_ ∧ _))

/-- 項目を読んだもの。`pad` は、その欄のバイトを一つの数として読んだもの（0 ならどのバイトも 0）。 -/
structure PatchFunc where
  oldAddr : Nat
  oldSize : Nat
  newAddr : Nat
  newSize : Nat
  pad : Nat
  deriving DecidableEq, Repr

/-- バッファの項目 `i` の欄をリトルエンディアンで読む。 -/
def readPatchFunc (l : PatchFuncLayout) (buf : List UInt8) (i : Nat) : PatchFunc :=
  { oldAddr := readLE buf (i * l.size + l.oldAddr) 8, oldSize := readLE buf (i * l.size + l.oldSize) 4,
    newAddr := readLE buf (i * l.size + l.newAddr) 8, newSize := readLE buf (i * l.size + l.newSize) 4,
    pad := readLE buf (i * l.size + l.pad) l.padSize }

/-- 関数 `y` を、動いているイメージのシンボル表で引く：局所的なら `hint` のファイルの中で。 -/
def lookupFunc (table : LookupTable) (hint : String) (y : Symbol) : Option LookupResult :=
  if y.bind = STB_LOCAL then table.lookupLocal y.name hint else table.lookupGlobal y.name

/-- 表を引いた結果 `r` から、関数 `y` の項目に書く値（`written` の順）。 -/
def patchFuncValues (resolve : Bool) (r : LookupResult) (y : Symbol) : List Nat :=
  [if resolve then r.value else 0, r.size, 0, y.sym.stSize, 0]

/-- 関数 `y` の項目を読むと返るもの：`old_addr` は `--resolve` のときだけ引いた番地、`new_addr` はロードのときに
リロケーションが埋めるので 0、大きさは `uint32_t` に切り詰められる。 -/
def patchFuncOf (resolve : Bool) (r : LookupResult) (y : Symbol) : PatchFunc :=
  { oldAddr := (if resolve then r.value else 0) % 2 ^ 64, oldSize := r.size % 2 ^ 32, newAddr := 0,
    newSize := y.sym.stSize % 2 ^ 32, pad := 0 }

section Entry

variable {l : PatchFuncLayout} {buf : List UInt8} {i : Nat}

theorem PatchFuncLayout.Fits.bounds (hl : l.Fits) :
    l.oldAddr + 8 ≤ l.size ∧ l.oldSize + 4 ≤ l.size ∧ l.newAddr + 8 ≤ l.size ∧ l.newSize + 4 ≤ l.size ∧
      l.pad + l.padSize ≤ l.size := by
  simpa [PatchFuncLayout.written] using hl.1

/-- 項目 `i` を書けば、項目 `i` を読むと書いた値が返る。 -/
theorem readPatchFunc_write_self (hl : l.Fits) (hb : (i + 1) * l.size ≤ buf.length) (resolve : Bool)
    (r : LookupResult) (y : Symbol) :
    readPatchFunc l (writeFields buf (i * l.size) (l.written.zip (patchFuncValues resolve r y))) i =
      patchFuncOf resolve r y := by
  have hz : l.written.zip (patchFuncValues resolve r y) = [((l.oldAddr, 8), if resolve then r.value else 0),
      ((l.oldSize, 4), r.size), ((l.newAddr, 8), 0), ((l.newSize, 4), y.sym.stSize), ((l.pad, l.padSize), 0)] := rfl
  have hfs := hl.2
  rw [← List.map_fst_zip l.written (patchFuncValues resolve r y) (by simp [PatchFuncLayout.written, patchFuncValues]),
    hz] at hfs
  obtain ⟨h1, h2, h3, h4, h5⟩ := hl.bounds
  rw [Nat.succ_mul] at hb
  have key := fun f => @readLE_writeFields_mem buf (i * l.size) _ hfs (by
    simp only [List.mem_cons, List.not_mem_nil, or_false]
    rintro f (rfl | rfl | rfl | rfl | rfl) <;> dsimp only <;> omega) f
  simp only [List.mem_cons, List.not_mem_nil, or_false] at key
  rw [hz]
  simp only [readPatchFunc, patchFuncOf, key _ (.inl rfl), key _ (.inr (.inl rfl)), key _ (.inr (.inr (.inl rfl))),
    key _ (.inr (.inr (.inr (.inl rfl)))), key _ (.inr (.inr (.inr (.inr rfl)))), Nat.zero_mod]
  norm_num

theorem readPatchFunc_write_of_ne (hl : l.Fits) {j : Nat} (hij : j ≠ i) (vs : List Nat) :
    readPatchFunc l (writeFields buf (i * l.size) (l.written.zip vs)) j = readPatchFunc l buf j := by
  have hsep : (j + 1) * l.size ≤ i * l.size ∨ (i + 1) * l.size ≤ j * l.size := by
    rcases Nat.lt_or_gt_of_ne hij with h | h
    exacts [.inl (Nat.mul_le_mul_right _ h), .inr (Nat.mul_le_mul_right _ h)]
  rw [Nat.succ_mul, Nat.succ_mul] at hsep
  have hf : ∀ f ∈ l.written.zip vs, f.1.1 + f.1.2 ≤ l.size := fun f hf => hl.1 _ (List.of_mem_zip hf).1
  have key : ∀ o w, o + w ≤ l.size → readLE (writeFields buf (i * l.size) (l.written.zip vs)) (j * l.size + o) w =
      readLE buf (j * l.size + o) w := fun o w how =>
    readLE_writeFields_of_apart fun f hmem => by have := hf f hmem; unfold Apart; dsimp only; omega
  obtain ⟨h1, h2, h3, h4, h5⟩ := hl.bounds
  simp only [readPatchFunc, key _ _ h1, key _ _ h2, key _ _ h3, key _ _ h4, key _ _ h5]

end Entry

/-! ## `xsplice_create_patches_sections` の表 -/

/-- ループの一周は、関数 `p` を表で引き、その結果 `r` から作った値を、項目 `index` の欄に順に書く。 -/
theorem patchEntry_funcs {tgt : Target} {table : LookupTable} {hint : String} {resolve : Bool} {sp rp strsym : Nat}
    {m m' : Mem} {k k' : Elf} {index index' : Nat} {p : SymRef} (hne : rp ≠ sp)
    (h : patchEntry tgt table hint resolve sp rp strsym (m, k, index) p = .ok (m', k', index')) :
    ∃ r, lookupFunc table hint (m.sym p) = some r ∧ tgt.patchInsnSize ≤ r.size ∧
      m'.sec sp = { m.sec sp with data := { (m.sec sp).data with
        dBuf := writeFields (m.sec sp).data.dBuf (index * tgt.layout.size)
          (tgt.layout.written.zip (patchFuncValues resolve r (m.sym p))) } } := by
  dsimp only [patchEntry] at h
  by_cases hloc : (m.sym p).bind = STB_LOCAL
  on_goal 1 => rw [if_pos hloc] at h
  on_goal 2 => rw [if_neg hloc] at h
  all_goals
    split at h <;> simp only [throw_eq_error, error_bind, reduceCtorEq, pure_bind] at h
    rename_i r hr
    split at h <;> simp only [throw_eq_error, error_bind, reduceCtorEq, pure_bind, pure_eq_ok, Except.ok.injEq,
      Prod.mk.injEq] at h
    obtain ⟨rfl, rfl, rfl⟩ := h
    refine ⟨r, by simp [lookupFunc, hloc, hr], by omega, ?_⟩
    rw [Mem.modSec_sec_of_ne _ _ (Ne.symm hne), Mem.modSec_sec_self]
    rfl

/-- ループの不変条件：関数の列 `ps` の項目を書いた後、シンボルは変わらず、`sp` のセクションはバッファの中身だけが
長さを変えずに変わり、項目 `i < ps.length` を読むと、`ps[i]` を表で引いた結果から作った値が返る。 -/
structure FuncsWritten (tgt : Target) (table : LookupTable) (hint : String) (resolve : Bool) (sp : SecRef) (m0 : Mem)
    (ps : List SymRef) (acc : Mem × Elf × Nat) : Prop where
  index : acc.2.2 = ps.length
  sym : acc.1.sym = m0.sym
  sec : ∃ buf, acc.1.sec sp = { m0.sec sp with data := { (m0.sec sp).data with dBuf := buf } } ∧
    buf.length = (m0.sec sp).data.dBuf.length
  entries : ∀ i (h : i < ps.length), ∃ r, lookupFunc table hint (m0.sym ps[i]) = some r ∧
    tgt.patchInsnSize ≤ r.size ∧ readPatchFunc tgt.layout (acc.1.sec sp).data.dBuf i = patchFuncOf resolve r (m0.sym ps[i])

section Loop

variable {tgt : Target} {table : LookupTable} {hint : String} {resolve : Bool} {sp rp strsym : Nat} {m0 : Mem}
  (hl : tgt.layout.Fits) (hne : rp ≠ sp)
include hl hne

theorem FuncsWritten.step {ps : List SymRef} {acc acc' : Mem × Elf × Nat} {p : SymRef}
    (hinv : FuncsWritten tgt table hint resolve sp m0 ps acc)
    (hb : (ps.length + 1) * tgt.layout.size ≤ (m0.sec sp).data.dBuf.length)
    (h : patchEntry tgt table hint resolve sp rp strsym acc p = .ok acc') :
    FuncsWritten tgt table hint resolve sp m0 (ps ++ [p]) acc' := by
  obtain ⟨m, k, n⟩ := acc
  obtain ⟨m', k', n'⟩ := acc'
  obtain ⟨rfl, hsym', -, -, -, -⟩ := patchEntry_ok hne h
  obtain ⟨r, hr, hsz, hsp⟩ := patchEntry_funcs hne h
  obtain ⟨hindex, hsym, ⟨buf, hbuf, hlen⟩, hent⟩ := hinv
  dsimp only at hindex hsym hbuf hent ⊢
  subst hindex
  rw [hsym] at hr hsp
  rw [hbuf] at hsp
  refine ⟨by simp, hsym'.trans hsym, ⟨_, hsp, by simp [hlen]⟩, fun i hi => ?_⟩
  rw [hsp]
  rw [List.length_append, List.length_singleton] at hi
  rcases Nat.lt_succ_iff_lt_or_eq.mp hi with hi | rfl
  · rw [readPatchFunc_write_of_ne hl (Nat.ne_of_lt hi), List.getElem_append_left hi]
    simpa only [hbuf] using hent i hi
  · rw [readPatchFunc_write_self hl (by rw [hlen]; exact hb), List.getElem_append_right (le_refl _)]
    simpa using ⟨r, hr, hsz, rfl⟩

theorem FuncsWritten.foldlM : ∀ (L ps : List SymRef) (acc acc' : Mem × Elf × Nat),
    FuncsWritten tgt table hint resolve sp m0 ps acc →
    (ps.length + L.length) * tgt.layout.size ≤ (m0.sec sp).data.dBuf.length →
    L.foldlM (patchEntry tgt table hint resolve sp rp strsym) acc = .ok acc' →
    FuncsWritten tgt table hint resolve sp m0 (ps ++ L) acc'
  | [], ps, acc, acc', hinv, _, h => by
    cases h
    simpa using hinv
  | p :: L, ps, acc, acc', hinv, hb, h => by
    obtain ⟨acc1, h1, h2⟩ := bind_eq_ok.mp h
    have hb1 : (ps.length + 1) * tgt.layout.size ≤ (m0.sec sp).data.dBuf.length :=
      le_trans (Nat.mul_le_mul_right _ (by simp)) hb
    simpa using FuncsWritten.foldlM L (ps ++ [p]) acc1 acc' (hinv.step hl hne hb1 h1)
      (by simpa [Nat.add_assoc, Nat.add_comm 1] using hb) h2

end Loop

/-- `xsplice_create_patches_sections` が項目を作る関数：`CHANGED` の `STT_FUNC` のシンボルを、列の順に。 -/
def changedFunctions (m : Mem) (l : List SymRef) : List SymRef :=
  l.filter fun p => (m.sym p).type == STT_FUNC && (m.sym p).status == .changed

theorem createSectionPair_data (m : Mem) (kelf : Elf) (name : String) (entsize nr : Nat) :
    ((createSectionPair m kelf name entsize nr).1.sec m.nsec).sh.shSize = entsize * nr ∧
      ((createSectionPair m kelf name entsize nr).1.sec m.nsec).data =
        { dBuf := List.replicate (entsize * nr) 0, dSize := entsize * nr } := by
  simp [createSectionPair, Mem.allocSec, Mem.modSec]

/-- `xsplice_create_patches_sections` が成功すれば、`.xsplice.funcs` を作ったときのメモリ `mA` から始めたループの
不変条件が、すべての `CHANGED` の関数について成り立つ。 -/
theorem createPatchesSections_funcsWritten {tgt : Target} {table : LookupTable} {hint : String} {resolve : Bool}
    {m0 m1 : Mem} {k0 k1 : Elf} (hl : tgt.layout.Fits)
    (h : xspliceCreatePatchesSections tgt table hint resolve m0 k0 = .ok (m1, k1)) :
    ∃ mA n, mA.sym = m0.sym ∧ (mA.sec m0.nsec).sh.shSize = tgt.layout.size * (changedFunctions m0 k0.symbols).length ∧
      (mA.sec m0.nsec).data =
        { dBuf := List.replicate (tgt.layout.size * (changedFunctions m0 k0.symbols).length) 0,
          dSize := tgt.layout.size * (changedFunctions m0 k0.symbols).length } ∧
      FuncsWritten tgt table hint resolve m0.nsec mA (changedFunctions m0 k0.symbols) (m1, k1, n) := by
  dsimp only [xspliceCreatePatchesSections] at h
  generalize hcp : createSectionPair m0 k0 _ _ _ = cp at h
  obtain ⟨mA, kA, sp⟩ := cp
  have hdata := createSectionPair_data m0 k0 ".xsplice.funcs" tgt.layout.size (changedFunctions m0 k0.symbols).length
  rw [show createSectionPair m0 k0 _ _ (changedFunctions m0 k0.symbols).length = _ from hcp] at hdata
  obtain ⟨rfl, rfl, hsymA, -, -, hrela, -⟩ := createSectionPair_spec hcp
  dsimp only at h hdata
  rw [hrela, Option.getD_some] at h
  split at h
  · obtain ⟨⟨mB, kB, n⟩, hfold, h⟩ := bind_eq_ok.mp h
    split at h
    · cases h
    obtain ⟨rfl, rfl⟩ := Prod.mk.inj (Except.ok.inj h)
    have hinit : FuncsWritten tgt table hint resolve m0.nsec mA []
        (mA, { k0 with sections := k0.sections ++ [m0.nsec, m0.nsec + 1] }, 0) :=
      ⟨rfl, rfl, ⟨_, rfl, rfl⟩, fun _ h => absurd h (Nat.not_lt_zero _)⟩
    exact ⟨mA, n, hsymA, hdata.1, hdata.2, FuncsWritten.foldlM hl (Nat.succ_ne_self _) _ _ _ _ hinit
      (by rw [hdata.2, List.length_replicate, List.length_nil, Nat.zero_add, Nat.mul_comm]; exact le_refl _) hfold⟩
  · cases h

/-- 構造体の配置が C のものなら、`xsplice_create_patches_sections` が成功したとき、`.xsplice.funcs` のヘッダの
大きさとバッファの長さは、どれも項目の大きさと `CHANGED` の関数の数の積で、項目 `i` をリトルエンディアンで
読むと、`i` 番目の `CHANGED` の関数を表で引いた結果 `r` から書いた値が返る。 -/
theorem create_patches_funcs_readable {tgt : Target} {table : LookupTable} {hint : String} {resolve : Bool}
    {m0 m1 : Mem} {k0 k1 : Elf} (hl : tgt.layout.Fits)
    (h : xspliceCreatePatchesSections tgt table hint resolve m0 k0 = .ok (m1, k1)) :
    (m1.sec m0.nsec).sh.shSize = tgt.layout.size * (changedFunctions m0 k0.symbols).length ∧
      (m1.sec m0.nsec).data.dSize = (m1.sec m0.nsec).sh.shSize ∧
      (m1.sec m0.nsec).data.dBuf.length = (m1.sec m0.nsec).sh.shSize ∧
      ∀ i (hi : i < (changedFunctions m0 k0.symbols).length), ∃ r,
        lookupFunc table hint (m0.sym (changedFunctions m0 k0.symbols)[i]) = some r ∧ tgt.patchInsnSize ≤ r.size ∧
        readPatchFunc tgt.layout (m1.sec m0.nsec).data.dBuf i =
          patchFuncOf resolve r (m0.sym (changedFunctions m0 k0.symbols)[i]) := by
  obtain ⟨mA, n, hsymA, hsh, hdata, -, -, ⟨buf, hsec, hlen⟩, hent⟩ := createPatchesSections_funcsWritten hl h
  rw [hsymA, hsec] at hent
  rw [hsec, hlen, hdata, hsh]
  exact ⟨rfl, rfl, List.length_replicate _ _, hent⟩

/-- 局所的な `f` と大域的な `g` を変えた出力のモデルでは、`.xsplice.funcs` の二つ目の項目は、`g` を大域の表で
引いた大きさと、`g` の `st_size` を読む（`--resolve` がないので `old_addr` は 0）。 -/
theorem two_function_funcs_entry :
    ∃ m1 k1, xspliceCreatePatchesSections exampleTarget exampleTable "patch.c" false
        (xspliceCreateStringsElements twoFunctionExample twoFunctionOut).1
        (xspliceCreateStringsElements twoFunctionExample twoFunctionOut).2 = .ok (m1, k1) ∧
      exampleTarget.layout.Fits ∧ ∃ r,
        lookupFunc exampleTable "patch.c" ((xspliceCreateStringsElements twoFunctionExample twoFunctionOut).1.sym 1) =
          some r ∧ exampleTarget.patchInsnSize ≤ r.size ∧
        readPatchFunc exampleTarget.layout (m1.sec 3).data.dBuf 1 =
          patchFuncOf false r ((xspliceCreateStringsElements twoFunctionExample twoFunctionOut).1.sym 1) :=
  ⟨_, _, rfl, by decide, (@create_patches_funcs_readable exampleTarget exampleTable "patch.c" false
    (xspliceCreateStringsElements twoFunctionExample twoFunctionOut).1 _
    (xspliceCreateStringsElements twoFunctionExample twoFunctionOut).2 _ (by decide) rfl).2.2.2 1 (by decide)⟩

/-! ## 表を書いた後の段 -/

/-- `m'` は、セクション `sp` の中身と、どのシンボルの `st_size` も変えない。 -/
structure TableKept (sp : SecRef) (m m' : Mem) : Prop where
  data : (m'.sec sp).data = (m.sec sp).data
  size : ∀ y, (m'.sym y).sym.stSize = (m.sym y).sym.stSize

namespace TableKept

variable {sp : SecRef} {m m' m'' : Mem}

theorem refl (m : Mem) : TableKept sp m m := ⟨rfl, fun _ => rfl⟩

theorem trans (h1 : TableKept sp m m') (h2 : TableKept sp m' m'') : TableKept sp m m'' :=
  ⟨h2.data.trans h1.data, fun y => (h2.size y).trans (h1.size y)⟩

theorem modSec {f : Section → Section} (p : SecRef) (hf : p = sp → ∀ x, (f x).data = x.data) :
    TableKept sp m (m.modSec p f) := by
  refine ⟨?_, fun _ => rfl⟩
  by_cases hp : p = sp
  · subst hp; rw [Mem.modSec_sec_self, hf rfl]
  · rw [Mem.modSec_sec_of_ne _ _ (Ne.symm hp)]

theorem modSym {f : Symbol → Symbol} (p : SymRef) (hf : ∀ z, (f z).sym.stSize = z.sym.stSize) :
    TableKept sp m (m.modSym p f) := by
  refine ⟨rfl, fun y => ?_⟩
  by_cases hy : y = p
  · subst hy; rw [Mem.modSym_sym_self, hf]
  · rw [Mem.modSym_sym_of_ne _ _ hy]

theorem foldl_fst {β : Type} {f : Mem × Nat → β → Mem × Nat} (hf : ∀ a x, TableKept sp a.1 (f a x).1) :
    ∀ (l : List β) (a : Mem × Nat), TableKept sp a.1 (l.foldl f a).1
  | [], a => refl a.1
  | x :: l, a => (hf a x).trans (foldl_fst hf l (f a x))

theorem foldl {β : Type} {f : Mem → β → Mem} (hf : ∀ m x, TableKept sp m (f m x)) :
    ∀ (l : List β) (m : Mem), TableKept sp m (l.foldl f m)
  | [], m => refl m
  | x :: l, m => (hf m x).trans (foldl hf l (f m x))

end TableKept

theorem patchFuncOf_congr {resolve : Bool} {r : LookupResult} {y y' : Symbol} (h : y'.sym.stSize = y.sym.stSize) :
    patchFuncOf resolve r y' = patchFuncOf resolve r y := by
  simp only [patchFuncOf, h]

end XspliceDiff

import LegoTrain.Flash.Device
import LegoTrain.Common.SoftCrc
import LegoTrain.Lib.DualCopy

/-!
# The partition table

The two copies of the partition table in flash, as `partition.c` reads and checks them.
A `pt_table_stuff_config` is a packed structure of 596 bytes: a header of 16 bytes, up to
16 entries of 36 bytes and the CRC of the entries, which the code keeps directly after
the last entry in use.

* `ptTableValid`, `ptTableGetActivePartitionNeedLock` and
  `ptTableGetActiveEntriesById` are the functions of the source, on the bytes;
* `PtTable` is what a valid copy says, and `ptStore` reads the flash as a two-copy store
  of such tables; `getActivePartition_eq` connects the two;
* `ptTableValid_congr`, `ptTable_congr` : only the bytes in use matter.
-/

namespace Partition

open ByteMem Flash SoftCrc

/-! ## Layout -/

/-- `BFLB_PT_TABLE0_ADDRESS`. -/
def bflbPtTable0Address : ℕ := 0x2D000

/-- `BFLB_PT_TABLE1_ADDRESS`. -/
def bflbPtTable1Address : ℕ := 0x2E000

/-- `BFLB_PT_MAGIC_CODE`. -/
def bflbPtMagicCode : ℕ := 0x54504642

/-- `PT_ENTRY_MAX`. -/
def ptEntryMax : ℕ := 16

/-- `PT_ENTRY_FW_CPU0`. -/
def ptEntryFwCpu0 : ℕ := 0

/-- `PT_ENTRY_FW_CPU1`. -/
def ptEntryFwCpu1 : ℕ := 1

/-- `sizeof(pt_table_config)`. -/
def ptTableConfigSize : ℕ := 16

/-- `sizeof(pt_table_entry_config)`. -/
def ptTableEntryConfigSize : ℕ := 36

/-- `sizeof(pt_table_stuff_config)`. -/
def ptTableStuffConfigSize : ℕ := 596

/-- `pt_table_error_type`. -/
inductive PtTableError
  | success
  | tableNotValid
  | entryNotFound
  | entryUpdateFail
  | crc32
  | parameter
  | falshRead
  | falshWrite
  | falshErase
  deriving DecidableEq, Repr

/-- `pt_table_id_type`. -/
inductive PtTableId
  | id0
  | id1
  | invalid
  deriving DecidableEq, Repr

/-- A `pt_table_entry_config`: its 36 bytes, as `memcpy` moves them. -/
structure PtTableEntry where
  bytes : List UInt8
  size : bytes.length = ptTableEntryConfigSize
  deriving DecidableEq

namespace PtTableEntry

/-- `type`. -/
def type (e : PtTableEntry) : ℕ := (e.bytes.getD 0 0).toNat

/-- `active_index`. -/
def activeIndex (e : PtTableEntry) : ℕ := (e.bytes.getD 2 0).toNat

/-- `start_address[i]`. -/
def startAddress (e : PtTableEntry) (i : ℕ) : ℕ := leNat ((e.bytes.drop (12 + 4 * i)).take 4)

/-- `max_len[i]`. -/
def maxLen (e : PtTableEntry) (i : ℕ) : ℕ := leNat ((e.bytes.drop (20 + 4 * i)).take 4)

/-- `len`. -/
def len (e : PtTableEntry) : ℕ := leNat ((e.bytes.drop 28).take 4)

/-- The entry with another `active_index`. -/
def setActiveIndex (e : PtTableEntry) (i : UInt8) : PtTableEntry :=
  ⟨e.bytes.set 2 i, by rw [List.length_set, e.size]⟩

/-- `name`, with the bytes of the entry after it. -/
def nameBytes (e : PtTableEntry) : List UInt8 := e.bytes.drop 3

/-- `age`. -/
def age (e : PtTableEntry) : ℕ := leNat ((e.bytes.drop 32).take 4)

/-- The entry after `age++`. -/
def bumpAge (e : PtTableEntry) : PtTableEntry :=
  ⟨e.bytes.take 32 ++ leBytes 4 (e.age + 1), by
    rw [List.length_append, List.length_take, e.size, length_leBytes]
    rfl⟩

theorem setActiveIndex_type (e : PtTableEntry) (i : UInt8) : (e.setActiveIndex i).type = e.type := by
  simp [type, setActiveIndex, List.getD_eq_getElem?_getD]

theorem setActiveIndex_activeIndex (e : PtTableEntry) (i : UInt8) :
    (e.setActiveIndex i).activeIndex = i.toNat := by
  have h := e.size
  unfold ptTableEntryConfigSize at h
  have h2 : 2 < (e.bytes.set 2 i).length := by
    rw [List.length_set]
    omega
  rw [activeIndex, setActiveIndex, List.getD_eq_getElem _ _ h2, List.getElem_set_self]

theorem setActiveIndex_startAddress (e : PtTableEntry) (i : UInt8) (k : ℕ) :
    (e.setActiveIndex i).startAddress k = e.startAddress k := by
  rw [startAddress, startAddress, setActiveIndex, List.drop_set_of_lt (by omega)]

end PtTableEntry

/-- A buffer of type `pt_table_stuff_config`. -/
abbrev PtTableStuff := Mem

namespace PtTableStuff

variable (s : PtTableStuff)

/-- `pt_table.magicCode`. -/
def magicCode : ℕ := le s 0 4

/-- `pt_table.version`. -/
def version : ℕ := le s 4 2

/-- `pt_table.entryCnt`. -/
def entryCnt : ℕ := le s 6 2

/-- `pt_table.age`. -/
def age : ℕ := le s 8 4

/-- `pt_table.crc32`. -/
def crc32 : ℕ := le s 12 4

/-- `&pt_entries[i]`, relative to the structure. -/
def entryOffset (i : ℕ) : ℕ := ptTableConfigSize + ptTableEntryConfigSize * i

/-- `pt_entries[i]`. -/
def ptEntry (i : ℕ) : PtTableEntry :=
  ⟨read s (entryOffset i) ptTableEntryConfigSize, length_read _ _ _⟩

/-- `sizeof(pt_table_entry_config) * pt_table->entryCnt`. -/
def entriesLen : ℕ := ptTableEntryConfigSize * s.entryCnt

/-- The bytes that mean something: header, entries in use and their CRC. -/
def usedLen : ℕ := ptTableConfigSize + s.entriesLen + 4

end PtTableStuff

open PtTableStuff

/-! ## The functions of the source -/

/-- `pt_table_valid`. -/
def ptTableValid (ptStuff : PtTableStuff) : Bool :=
  if magicCode ptStuff = bflbPtMagicCode then
    if entryCnt ptStuff > ptEntryMax then false
    else if crc32 ptStuff ≠ bflbSoftCrc32 (read ptStuff 0 (ptTableConfigSize - 4)) then false
    else if le ptStuff (ptTableConfigSize + entriesLen ptStuff) 4
        ≠ bflbSoftCrc32 (read ptStuff ptTableConfigSize (entriesLen ptStuff)) then false
    else true
  else false

/-- `gp_pt_table_flash_read(addr, &ptStuff, sizeof(pt_table_stuff_config))`. -/
def readPtStuff (flash : Mem) (addr : ℕ) : PtTableStuff :=
  ofBytes (flashRead flash addr ptTableStuffConfigSize)

/-- The choice between two copies. -/
def selectActive (ptStuff0 ptStuff1 : PtTableStuff) : PtTableId :=
  if ptTableValid ptStuff0 = true ∧ ptTableValid ptStuff1 = true then
    if age ptStuff0 ≥ age ptStuff1 then .id0 else .id1
  else if ptTableValid ptStuff0 then .id0
  else if ptTableValid ptStuff1 then .id1
  else .invalid

/-- `pt_table_get_active_partition_need_lock`: the two copies and the active one. -/
def ptTableGetActivePartitionNeedLock (flash : Mem) : (PtTableStuff × PtTableStuff) × PtTableId :=
  let ptStuff0 := readPtStuff flash bflbPtTable0Address
  let ptStuff1 := readPtStuff flash bflbPtTable1Address
  ((ptStuff0, ptStuff1), selectActive ptStuff0 ptStuff1)

/-- The loop over the entries that looks for a type. -/
def findEntry (ptStuff : PtTableStuff) (type : ℕ) : Option ℕ :=
  (List.range (entryCnt ptStuff)).find? fun i => (ptEntry ptStuff i).type = type

/-- `pt_table_get_active_entries_by_id`: the error code and the entry it copies out. -/
def ptTableGetActiveEntriesById (ptStuff : PtTableStuff) (type : ℕ) :
    PtTableError × Option PtTableEntry :=
  match findEntry ptStuff type with
  | some i => (.success, some (ptEntry ptStuff i))
  | none => (.entryNotFound, none)

/-- The C string at the start of a buffer. -/
def cString (bs : List UInt8) : List UInt8 := bs.takeWhile fun b => b ≠ 0

/-- `strlen`. -/
def strlen (bs : List UInt8) : ℕ := (cString bs).length

/-- The test of a name: `strlen` and then `memcmp`.  A name of an entry that is not terminated
in the entry is longer than any name that is looked for. -/
def nameMatches (e : PtTableEntry) (name : List UInt8) : Bool :=
  strlen e.nameBytes = strlen name ∧ e.nameBytes.take (strlen name) = name.take (strlen name)

/-- The loop over the entries that looks for a name. -/
def findEntryByName (ptStuff : PtTableStuff) (name : List UInt8) : Option ℕ :=
  (List.range (entryCnt ptStuff)).find? fun i => nameMatches (ptEntry ptStuff i) name

/-- `pt_table_get_active_entries_by_name`. -/
def ptTableGetActiveEntriesByName (ptStuff : PtTableStuff) (name : List UInt8) :
    PtTableError × Option PtTableEntry :=
  match findEntryByName ptStuff name with
  | some i => (.success, some (ptEntry ptStuff i))
  | none => (.entryNotFound, none)

/-! ## What a table says -/

/-- The content of a table: magic, version, count, age and entries. -/
structure PtTable where
  magicCode : ℕ
  version : ℕ
  entryCnt : ℕ
  age : ℕ
  entries : List PtTableEntry
  deriving DecidableEq

/-- The content of a buffer. -/
def ptTable (s : PtTableStuff) : PtTable where
  magicCode := magicCode s
  version := version s
  entryCnt := entryCnt s
  age := age s
  entries := (List.range (entryCnt s)).map (ptEntry s)

/-- The entry with the given type, the first one when there are several. -/
def PtTable.lookup (t : PtTable) (type : ℕ) : Option PtTableEntry :=
  t.entries.find? fun e => e.type = type

/-- The address of a copy: `false` is copy 0. -/
def tableAddress (b : Bool) : ℕ := if b then bflbPtTable1Address else bflbPtTable0Address

/-- The number of a copy. -/
def tableId (b : Bool) : PtTableId := if b then .id1 else .id0

/-- Copy `b` of the table, as read from flash. -/
def ptCopy (flash : Mem) (b : Bool) : PtTableStuff := readPtStuff flash (tableAddress b)

/-- The flash as a two-copy store of tables. -/
def ptStore (flash : Mem) : DualCopy.Store PtTable := fun b =>
  if ptTableValid (ptCopy flash b) then
    some (age (ptCopy flash b), ptTable (ptCopy flash b))
  else none

/-- The table in force, as the code selects it. -/
def selectedTable (flash : Mem) : Option PtTable :=
  let (ptStuff, activePtID) := ptTableGetActivePartitionNeedLock flash
  match activePtID with
  | .id0 => some (ptTable ptStuff.1)
  | .id1 => some (ptTable ptStuff.2)
  | .invalid => none

theorem getActivePartition_fst (flash : Mem) :
    (ptTableGetActivePartitionNeedLock flash).1 = (ptCopy flash false, ptCopy flash true) := rfl

/-- The source's choice of the active copy is the choice of the two-copy store. -/
theorem getActivePartition_eq (flash : Mem) :
    (ptTableGetActivePartitionNeedLock flash).2
      = match DualCopy.active (ptStore flash) with
        | some b => tableId b
        | none => .invalid := by
  have h0 : readPtStuff flash bflbPtTable0Address = ptCopy flash false := rfl
  have h1 : readPtStuff flash bflbPtTable1Address = ptCopy flash true := rfl
  unfold ptTableGetActivePartitionNeedLock selectActive
  simp only [h0, h1, DualCopy.active, ptStore]
  by_cases hv0 : ptTableValid (ptCopy flash false) <;>
    by_cases hv1 : ptTableValid (ptCopy flash true) <;> simp [hv0, hv1, tableId]
  by_cases hage : age (ptCopy flash true) ≤ age (ptCopy flash false) <;> simp [hage]

/-- The selected table is the current record of the two-copy store. -/
theorem selectedTable_eq (flash : Mem) :
    selectedTable flash = (DualCopy.current (ptStore flash)).map Prod.snd := by
  have hid := getActivePartition_eq flash
  have hfst := getActivePartition_fst flash
  unfold selectedTable
  generalize ptTableGetActivePartitionNeedLock flash = r at hid hfst
  obtain ⟨ptStuff, activePtID⟩ := r
  simp only at hid hfst
  rw [hid, hfst]
  rw [DualCopy.current]
  cases hb : DualCopy.active (ptStore flash) with
  | none => rfl
  | some b =>
    obtain ⟨x, hx, -⟩ := DualCopy.active_eq_some_iff.1 hb
    have hv : ptTableValid (ptCopy flash b) = true := by
      by_contra hc
      rw [ptStore, if_neg hc] at hx
      cases hx
    cases b <;> simp [ptStore, hv, tableId]

/-- The lookup of the source is the lookup in the content. -/
theorem getActiveEntriesById_eq (s : PtTableStuff) (type : ℕ) :
    ptTableGetActiveEntriesById s type
      = match (ptTable s).lookup type with
        | some e => (.success, some e)
        | none => (.entryNotFound, none) := by
  unfold ptTableGetActiveEntriesById findEntry PtTable.lookup ptTable
  rw [List.find?_map]
  cases h : (List.range (entryCnt s)).find? (fun i => decide ((ptEntry s i).type = type)) with
  | none =>
    have h' : (List.range (entryCnt s)).find?
        ((fun e : PtTableEntry => decide (e.type = type)) ∘ ptEntry s) = none := h
    rw [h']
    rfl
  | some i =>
    have h' : (List.range (entryCnt s)).find?
        ((fun e : PtTableEntry => decide (e.type = type)) ∘ ptEntry s) = some i := h
    rw [h']
    rfl

/-- The boot loader's lookup: in the active copy, by type. -/
def lookupActive (flash : Mem) (type : ℕ) : PtTableError × Option PtTableEntry :=
  let pt := ptTableGetActivePartitionNeedLock flash
  ptTableGetActiveEntriesById (if pt.2 = .id1 then pt.1.2 else pt.1.1) type

/-- The table that the code works on when copy `b` is in force. -/
theorem getActivePartition_of_active {flash : Mem} {b : Bool}
    (hb : DualCopy.active (ptStore flash) = some b) :
    ptTableGetActivePartitionNeedLock flash
      = ((ptCopy flash false, ptCopy flash true), tableId b) := by
  have hid := getActivePartition_eq flash
  rw [hb] at hid
  exact Prod.ext (getActivePartition_fst flash) hid

theorem lookupActive_of_active {flash : Mem} {b : Bool}
    (hb : DualCopy.active (ptStore flash) = some b) (type : ℕ) :
    lookupActive flash type = ptTableGetActiveEntriesById (ptCopy flash b) type := by
  rw [lookupActive, getActivePartition_of_active hb]
  cases b <;> simp [tableId]

theorem ptStore_eq_some {flash : Mem} {b : Bool} {x : ℕ × PtTable}
    (h : ptStore flash b = some x) : ptTableValid (ptCopy flash b) = true ∧
      x = ((ptTable (ptCopy flash b)).age, ptTable (ptCopy flash b)) := by
  unfold ptStore at h
  split at h
  · rename_i hv
    exact ⟨hv, (Option.some.inj h).symm⟩
  · cases h

/-- The selected table is the content of the copy in force. -/
theorem selectedTable_of_active {flash : Mem} {b : Bool}
    (hb : DualCopy.active (ptStore flash) = some b) :
    selectedTable flash = some (ptTable (ptCopy flash b)) := by
  obtain ⟨x, hx, hcur⟩ := DualCopy.exists_of_active hb
  rw [selectedTable_eq, hcur, (ptStore_eq_some hx).2]
  rfl

/-! ## The bytes in use -/

/-- A copy shows the flash from its address on. -/
theorem read_readPtStuff {flash : Mem} {addr o n : ℕ} (ha : addr + ptTableStuffConfigSize ≤ 2 ^ 32)
    (h : o + n ≤ ptTableStuffConfigSize) :
    read (readPtStuff flash addr) o n = read flash (addr + o) n := by
  rw [readPtStuff, flashRead_eq ha, read_ofBytes (by rw [length_read]; exact h), read_sub h]

theorem tableAddress_le (b : Bool) : tableAddress b + ptTableStuffConfigSize ≤ 2 ^ 32 := by
  cases b <;> decide

theorem read_ptCopy {flash : Mem} {b : Bool} {o n : ℕ} (h : o + n ≤ ptTableStuffConfigSize) :
    read (ptCopy flash b) o n = read flash (tableAddress b + o) n :=
  read_readPtStuff (tableAddress_le b) h

section Congr

variable {s t : PtTableStuff} {k : ℕ} (h : read s 0 k = read t 0 k)
include h

/-- Fields in the agreeing part are equal. -/
theorem le_congr_sub {o w : ℕ} (hk : o + w ≤ k) : le s o w = le t o w := by
  have h' := read_sub_congr h hk
  rw [Nat.zero_add] at h'
  exact le_congr h'

theorem read_congr_sub {o w : ℕ} (hk : o + w ≤ k) : read s o w = read t o w := by
  have h' := read_sub_congr h hk
  rwa [Nat.zero_add] at h'

theorem entryCnt_congr (hk : ptTableConfigSize ≤ k) : entryCnt s = entryCnt t :=
  le_congr_sub h (by unfold ptTableConfigSize at hk; omega)

theorem age_congr (hk : ptTableConfigSize ≤ k) : age s = age t :=
  le_congr_sub h (by unfold ptTableConfigSize at hk; omega)

/-- Validity depends on the bytes in use only. -/
theorem ptTableValid_congr (hk : usedLen s ≤ k) : ptTableValid s = ptTableValid t := by
  unfold usedLen ptTableConfigSize at hk
  have hcnt : entryCnt s = entryCnt t := entryCnt_congr h (by unfold ptTableConfigSize; omega)
  have hlen : entriesLen s = entriesLen t := by rw [entriesLen, entriesLen, hcnt]
  have hmagic : magicCode s = magicCode t := le_congr_sub h (by omega)
  have hcrc : crc32 s = crc32 t := le_congr_sub h (by omega)
  have hhead : read s 0 (ptTableConfigSize - 4) = read t 0 (ptTableConfigSize - 4) :=
    read_congr_sub h (by unfold ptTableConfigSize; omega)
  have hentries : read s ptTableConfigSize (entriesLen s)
      = read t ptTableConfigSize (entriesLen s) :=
    read_congr_sub h (by unfold ptTableConfigSize; omega)
  have hcrc2 : le s (ptTableConfigSize + entriesLen s) 4
      = le t (ptTableConfigSize + entriesLen s) 4 :=
    le_congr_sub h (by unfold ptTableConfigSize; omega)
  unfold ptTableValid
  rw [hmagic, hcrc, hhead, hcrc2, hentries, hcnt, hlen]

/-- The content depends on the bytes in use only. -/
theorem ptTable_congr (hk : ptTableConfigSize + entriesLen s ≤ k) : ptTable s = ptTable t := by
  unfold entriesLen ptTableConfigSize ptTableEntryConfigSize at hk
  have hcnt : entryCnt s = entryCnt t := entryCnt_congr h (by unfold ptTableConfigSize; omega)
  have hentries : (List.range (entryCnt s)).map (ptEntry s)
      = (List.range (entryCnt s)).map (ptEntry t) := by
    refine List.map_congr_left fun i hi => ?_
    have hi : i < entryCnt s := by simpa using hi
    have he : read s (entryOffset i) ptTableEntryConfigSize
        = read t (entryOffset i) ptTableEntryConfigSize :=
      read_congr_sub h (by unfold entryOffset ptTableConfigSize ptTableEntryConfigSize; omega)
    rw [ptEntry, ptEntry, PtTableEntry.mk.injEq, he]
  have hmagic : magicCode s = magicCode t := le_congr_sub h (by omega)
  have hversion : version s = version t := le_congr_sub h (by omega)
  have hage : age s = age t := le_congr_sub h (by omega)
  rw [ptTable, ptTable, PtTable.mk.injEq, hmagic, hversion, hage, hentries, hcnt]
  exact ⟨rfl, rfl, rfl, rfl, rfl⟩

end Congr

end Partition

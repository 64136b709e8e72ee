import Desiros.Fs.BlockMapping
import Desiros.Fs.FileRead
import Desiros.Fs.MakeDir
import Mathlib.Data.List.GetD

/-!
# Reading files over whole runs (`ext2_functions.c`)

A file opened for reading is a list of bytes with a cursor: `ext2_read` and `ext2_seek`, called on any number of open
files in any order, over the block devices of `block_dev.c`, answer as `FileView` does (`readers_refine`). A file is
one that `get_data_block` reaches, of direct blocks. `SEEK_END` counts backwards, and the cursor stays within the size
that the inode had when the file was looked up.
-/

namespace Desiros.Fs

open Desiros.Library Block

/-! ## Calls on open files -/

def seekSet : Nat := 0
def seekCur : Nat := 1
def seekEnd : Nat := 2

/-- A descriptor with `ofd->dentry->d_inode->i_size`. -/
structure FileHandle extends Ext2File where
  iSize : Nat

def FileHandle.seek (file : FileHandle) (octet : Nat) : FileHandle := { file with currentOctet := octet }

/-- `ext2_seek`. -/
def ext2Seek (file : FileHandle) (offset : Int) (whence : Nat) : Int × FileHandle :=
  if whence = seekSet then
    if file.iSize < toWord offset then (-1, file) else (0, file.seek (toWord offset))
  else if whence = seekCur then
    if file.iSize < (file.currentOctet + toWord offset) % 2 ^ 32 then (-1, file)
    else (0, file.seek ((file.currentOctet + toWord offset) % 2 ^ 32))
  else if whence = seekEnd then
    if file.iSize < toWord offset then (-1, file) else (0, file.seek (toWord (file.iSize - offset)))
  else (0, file)

inductive HandleCall where
  | read (buf : Bytes) (size : Nat)
  | seek (offset : Int) (whence : Nat)

/-- What a call returns, with the buffer it filled or the position it left. -/
inductive HandleReply where
  | read (ret : Int) (buf : Bytes)
  | seek (ret : Int) (octet : Nat)

section

variable {ι : Type} [DecidableEq ι] (dev : Blkdev) (g : FileGarbage)

/-- The kernel and the open files. -/
structure Readers (ι : Type) where
  kernel : Ext2Kernel
  files : ι → FileHandle

def Readers.call (fuel : Nat) (s : Readers ι) (fd : ι) : HandleCall → Option (HandleReply × Readers ι)
  | .read buf size =>
    (ext2ReadCall dev g fuel s.kernel (s.files fd).toExt2File buf size).map fun (ret, buf, ofd, w) =>
      (.read ret buf, ⟨w, Function.update s.files fd { s.files fd with toExt2File := ofd }⟩)
  | .seek offset whence =>
    let r := ext2Seek (s.files fd) offset whence
    some (.seek r.1 r.2.currentOctet, { s with files := Function.update s.files fd r.2 })

def Readers.calls (fuel : Nat) : Readers ι → List (ι × HandleCall) → Option (List HandleReply × Readers ι)
  | s, [] => some ([], s)
  | s, (fd, c) :: cs =>
    (s.call dev g fuel fd c).bind fun (r, s') => (Readers.calls fuel s' cs).map fun (rs, s'') => (r :: rs, s'')

end

/-! ## A list of bytes with a cursor -/

structure FileView where
  content : List UInt8
  bound : Nat
  pos : Nat

/-- The cursor goes to an offset within the bound. -/
def FileView.moveTo (f : FileView) (target : Int) : HandleReply × FileView :=
  if 0 ≤ target ∧ target ≤ f.bound then (.seek 0 target.toNat, { f with pos := target.toNat })
  else (.seek (-1) f.pos, f)

def FileView.call (f : FileView) : HandleCall → HandleReply × FileView
  | .read buf size =>
    let data := (f.content.drop f.pos).take size
    (.read data.length fun i => data.getD i (buf i), { f with pos := f.pos + data.length })
  | .seek offset whence =>
    if whence = seekSet then f.moveTo offset
    else if whence = seekCur then f.moveTo (f.pos + offset)
    else if whence = seekEnd then f.moveTo (f.bound - offset)
    else (.seek 0 f.pos, f)

def viewCalls {ι : Type} [DecidableEq ι] (views : ι → FileView) :
    List (ι × HandleCall) → List HandleReply × (ι → FileView)
  | [] => ([], views)
  | (fd, c) :: cs =>
    let r := (views fd).call c
    let rs := viewCalls (Function.update views fd r.2) cs
    (r.1 :: rs.1, rs.2)

/-! ## What a descriptor shows -/

section

variable (dev : Blkdev) (g : FileGarbage) (devSize : Nat)

/-- The content of a file in the ext2 format. -/
def fileContent (fs : Ext2FsInstance) (inode : Ext2Inode) : List UInt8 :=
  (List.range inode.iSize).map fun x => formatData fs inode (x / fs.blockSize) (x % fs.blockSize)

/-- The blocks are direct ones, none is missing, and they lie on the device. -/
def OnDevice (fs : Ext2FsInstance) (inode : Ext2Inode) : Prop :=
  ∀ n < blockCount fs inode, DirectBlock fs inode n ∧ inode.iBlock n ≠ 0 ∧
    inode.iBlock n * fs.blockSize + fs.blockSize ≤ devSize

/-- The inode of a descriptor, as `read_inode` returns it. -/
def Ext2Kernel.inodeOf (w : Ext2Kernel) (file : FileHandle) : Ext2Inode :=
  ext2InodeAt (w.readInode dev g file.iIno).1

structure ShowsFile (w : Ext2Kernel) (file : FileHandle) (view : FileView) : Prop where
  flags : file.flags &&& oAccmode ≠ oWronly
  ino : file.iIno < 2 ^ 31
  blocks : OnDevice devSize w.volume.toExt2FsInstance (w.inodeOf dev g file)
  content : view.content = fileContent w.volume.toExt2FsInstance (w.inodeOf dev g file)
  bound : view.bound = file.iSize
  pos : view.pos = file.currentOctet
  bound_lt : view.bound < 2 ^ 31
  pos_lt : view.pos < 2 ^ 31

/-- Arguments that are an `int` and a `long`. -/
def HandleCall.Ok : HandleCall → Prop
  | .read _ size => size < 2 ^ 31
  | .seek offset _ => -2 ^ 31 ≤ offset ∧ offset < 2 ^ 31

end

section

variable {dev : Blkdev} {g : FileGarbage} {devSize : Nat} {w w' : Ext2Kernel} {file : FileHandle} {view : FileView}
  {fs : Ext2FsInstance} {inode : Ext2Inode}

theorem inodeOf_congr (hvolume : w'.volume = w.volume) (file : FileHandle) :
    w'.inodeOf dev g file = w.inodeOf dev g file := by
  obtain ⟨v, h⟩ := w
  obtain ⟨v', h'⟩ := w'
  subst hvolume
  rfl

/-- The disk decides what a descriptor shows, and the cursor may move. -/
theorem ShowsFile.moved (h : ShowsFile dev g devSize w file view) (hvolume : w'.volume = w.volume) {pos : Nat}
    (hpos : pos < 2 ^ 31) : ShowsFile dev g devSize w' (file.seek pos) { view with pos := pos } where
  flags := h.flags
  ino := h.ino
  blocks := by
    rw [hvolume, inodeOf_congr hvolume]
    exact h.blocks
  content := by
    rw [hvolume, inodeOf_congr hvolume]
    exact h.content
  bound := h.bound
  pos := rfl
  bound_lt := h.bound_lt
  pos_lt := hpos

theorem ShowsFile.kept (h : ShowsFile dev g devSize w file view) (hvolume : w'.volume = w.volume) :
    ShowsFile dev g devSize w' file view := by
  have hmoved := h.moved hvolume h.pos_lt
  rw [h.pos] at hmoved
  have hview : { view with pos := file.currentOctet } = view := by rw [← h.pos]
  rw [hview] at hmoved
  exact hmoved

/-- The last block of a byte of the file. -/
theorem div_lt_blockCount (hbs : 0 < fs.blockSize) {x : Nat} (hx : x < inode.iSize) :
    x / fs.blockSize < blockCount fs inode := by
  apply (Nat.le_div_iff_mul_le hbs).mpr
  have hdiv := Nat.div_mul_le_self x fs.blockSize
  rw [Nat.succ_mul]
  omega

/-- `get_data_block` finds the blocks. -/
theorem OnDevice.address (h : OnDevice devSize fs inode) (hbs : 0 < fs.blockSize) (g : Garbage) {n : Nat}
    (hn : n < blockCount fs inode) : getDataBlock fs g inode n = inode.iBlock n * fs.blockSize := by
  obtain ⟨⟨hdirect, hlow⟩, -⟩ := h n hn
  rw [getDataBlock_inside hbs ⟨by omega, by omega⟩ (by omega), Int.toNat_natCast]
  exact Nat.mod_eq_of_lt hlow

theorem OnDevice.mapped (h : OnDevice devSize w.volume.toExt2FsInstance inode) (hbs : 0 < w.blockSize) :
    BlocksMapped g devSize w inode := by
  intro n hn
  dsimp only
  obtain ⟨-, hne, hend⟩ := h n hn
  rw [h.address hbs _ hn]
  exact ⟨Nat.mul_ne_zero hne (Nat.pos_iff_ne_zero.mp hbs), hend⟩

/-- The bytes of the blocks are those of the format. -/
theorem OnDevice.fileData_eq (h : OnDevice devSize w.volume.toExt2FsInstance inode) (hbs : 0 < w.blockSize) {x : Nat}
    (hx : x < inode.iSize) : fileData g w inode x = (fileContent w.volume.toExt2FsInstance inode).getD x 0 := by
  have hblock : x / w.blockSize < _ := div_lt_blockCount hbs hx
  obtain ⟨⟨hdirect, -⟩, -⟩ := h _ hblock
  have hformat : formatBlock w.volume.toExt2FsInstance inode (x / w.blockSize) = inode.iBlock (x / w.blockSize) :=
    if_pos hdirect
  unfold fileData fileContent
  rw [List.getD_eq_getElem _ _ (by rw [List.length_map, List.length_range]; exact hx), List.getElem_map,
    List.getElem_range]
  show _ = w.volume.disk (formatBlock w.volume.toExt2FsInstance inode (x / w.blockSize) * w.blockSize + x % w.blockSize)
  rw [hformat]
  exact congrArg (fun a => w.volume.disk (a + x % w.blockSize)) (h.address hbs _ hblock)

theorem fileContent_length (fs : Ext2FsInstance) (inode : Ext2Inode) :
    (fileContent fs inode).length = inode.iSize := by
  unfold fileContent
  rw [List.length_map, List.length_range]

/-- Twelve blocks. -/
theorem OnDevice.size_le (h : OnDevice devSize fs inode) (hbs : 0 < fs.blockSize) :
    inode.iSize ≤ 12 * fs.blockSize := by
  by_contra hlarge
  have hlast : 12 < blockCount fs inode := by
    apply (Nat.le_div_iff_mul_le hbs).mpr
    rw [Nat.succ_mul]
    omega
  exact absurd (h 12 hlast).1.1 (Nat.lt_irrefl 12)

/-! ## The calls -/

/-- `ext2_read` takes the bytes behind the cursor. -/
theorem ext2ReadCall_view (hdev : ReadsDevice dev devSize) (hbs : 0 < w.blockSize)
    (h : ShowsFile dev g devSize w file view) (buf : Bytes) {size fuel : Nat} (hsize : size < 2 ^ 31)
    (hfuel : 2 ^ 31 ≤ fuel) :
    let data := (view.content.drop view.pos).take size
    ∃ w', ext2ReadCall dev g fuel w file.toExt2File buf size =
        some ((data.length : Int), fun i => data.getD i (buf i),
          { file.toExt2File with currentOctet := view.pos + data.length }, w') ∧ w'.volume = w.volume := by
  intro data
  have hpos := h.pos
  have hposlt := h.pos_lt
  have hlength : data.length = min size ((w.inodeOf dev g file).iSize - file.currentOctet) := by
    rw [← hpos]
    show ((view.content.drop view.pos).take size).length = _
    rw [List.length_take, List.length_drop, h.content, fileContent_length]
  have hino : 0 ≤ toInt file.iIno := by
    rw [toInt_of_lt h.ino]
    exact Int.natCast_nonneg _
  rw [ext2ReadCall_eq dev g hbs (by omega)]
  unfold ext2Read
  rw [if_neg h.flags, if_pos hino]
  dsimp only
  show ∃ w', (if (w.inodeOf dev g file).iSize ≤ file.currentOctet then _ else _) = _ ∧ _
  by_cases hend : (w.inodeOf dev g file).iSize ≤ file.currentOctet
  · have hnil : data = [] := List.eq_nil_of_length_eq_zero (by omega)
    refine ⟨(w.readInode dev g file.iIno).2, ?_, rfl⟩
    rw [if_pos hend, hnil, hpos]
    rfl
  rw [if_neg hend]
  have hstart := Nat.div_add_mod' file.currentOctet w.blockSize
  obtain ⟨w', hloop, hvolume⟩ := ext2ReadLoop_spec (g := g) hdev hbs (h.blocks.mapped hbs) fuel
    (w.readInode dev g file.iIno).2 data.length (file.currentOctet / w.blockSize) (file.currentOctet % w.blockSize) buf
    0 rfl (Nat.mod_lt _ hbs) (fun _ => by omega) (by omega)
  refine ⟨w', ?_, hvolume⟩
  show Option.map _ (ext2ReadLoop dev g (w.inodeOf dev g file) fuel _
    (min size ((w.inodeOf dev g file).iSize - file.currentOctet)) _ _ buf 0) = _
  rw [← hlength, hloop, hstart]
  simp only [Option.map_some, Nat.zero_add, Nat.zero_le, true_and, Nat.sub_zero]
  have hisize : (w.inodeOf dev g file).iSize < 2 ^ 32 := le32_lt _ _
  have hcursor : (file.currentOctet + data.length) % 2 ^ 32 = file.currentOctet + data.length :=
    Nat.mod_eq_of_lt (by omega)
  rw [hcursor, hpos, toInt_of_lt (show data.length < 2 ^ 31 by omega)]
  congr 3
  funext i
  by_cases hi : i < data.length
  · rw [if_pos hi, (h.blocks.fileData_eq hbs (by omega)), ← h.content, List.getD_eq_getElem _ _ hi,
      List.getD_eq_getElem _ _ (by rw [h.content, fileContent_length]; omega)]
    simp only [data, List.getElem_take, List.getElem_drop, hpos]
  · rw [if_neg hi, List.getD_eq_default _ _ (Nat.le_of_not_lt hi)]

/-- `ext2_seek` moves the cursor within the bound. -/
theorem ext2Seek_view (h : ShowsFile dev g devSize w file view) {offset : Int}
    (hoffset : -2 ^ 31 ≤ offset ∧ offset < 2 ^ 31) (whence : Nat) :
    let r := ext2Seek file offset whence
    let v := view.call (.seek offset whence)
    v.1 = .seek r.1 r.2.currentOctet ∧ ∃ pos < 2 ^ 31, r.2 = file.seek pos ∧ v.2 = { view with pos := pos } := by
  have hpos := h.pos
  have hposlt := h.pos_lt
  have hbound := h.bound
  have hboundlt := h.bound_lt
  have hself : file = file.seek view.pos := by
    rw [hpos]
    rfl
  -- the three cases test and set a target, which is computed in words
  have hmove : ∀ (target : Int) (word test : Nat), (file.iSize < test ↔ ¬ (0 ≤ target ∧ target ≤ view.bound)) →
      (0 ≤ target ∧ target ≤ view.bound → word = target.toNat) →
      let r : Int × FileHandle := if file.iSize < test then (-1, file) else (0, file.seek word)
      let v := view.moveTo target
      v.1 = .seek r.1 r.2.currentOctet ∧ ∃ pos < 2 ^ 31, r.2 = file.seek pos ∧ v.2 = { view with pos := pos } := by
    intro target word test htest hword
    unfold FileView.moveTo
    dsimp only
    by_cases hin : 0 ≤ target ∧ target ≤ view.bound
    · have hno : ¬ file.iSize < test := fun hlt => htest.mp hlt hin
      rw [if_pos hin, if_neg hno, hword hin]
      exact ⟨rfl, target.toNat, by omega, rfl, rfl⟩
    · rw [if_neg hin, if_pos (htest.mpr hin)]
      refine ⟨by rw [hpos], view.pos, hposlt, hself, rfl⟩
  unfold ext2Seek FileView.call
  dsimp only
  by_cases hset : whence = seekSet
  · rw [if_pos hset, if_pos hset]
    refine hmove offset (toWord offset) (toWord offset) ?_ ?_ <;> unfold toWord <;> omega
  by_cases hcur : whence = seekCur
  · rw [if_neg hset, if_pos hcur, if_neg hset, if_pos hcur]
    refine hmove (view.pos + offset) _ _ ?_ ?_ <;> unfold toWord <;> omega
  by_cases hend : whence = seekEnd
  · rw [if_neg hset, if_neg hcur, if_pos hend, if_neg hset, if_neg hcur, if_pos hend]
    refine hmove (view.bound - offset) _ _ ?_ ?_ <;> unfold toWord <;> omega
  · rw [if_neg hset, if_neg hcur, if_neg hend, if_neg hset, if_neg hcur, if_neg hend]
    exact ⟨by rw [hpos], view.pos, hposlt, hself, rfl⟩

variable {ι : Type} [DecidableEq ι]

/-- One call. -/
theorem Readers.call_view (hdev : ReadsDevice dev devSize) {s : Readers ι} {views : ι → FileView}
    (hlog : s.kernel.volume.superblock.sLogBlockSize ≤ 2)
    (h : ∀ fd, ShowsFile dev g devSize s.kernel (s.files fd) (views fd)) (fd : ι) {c : HandleCall} (hc : c.Ok)
    {fuel : Nat} (hfuel : 2 ^ 31 ≤ fuel) :
    ∃ s', s.call dev g fuel fd c = some (((views fd).call c).1, s') ∧ s'.kernel.volume = s.kernel.volume ∧
      ∀ d, ShowsFile dev g devSize s'.kernel (s'.files d) (Function.update views fd ((views fd).call c).2 d) := by
  have hbs : 0 < s.kernel.blockSize ∧ s.kernel.blockSize ≤ 4096 := by
    rcases blockSize_of_log hlog with hsize | hsize | hsize <;>
      · rw [show s.kernel.blockSize = s.kernel.volume.toExt2FsInstance.blockSize from rfl, hsize]
        decide
  -- the other descriptors keep their cursors
  have hall : ∀ (w' : Ext2Kernel) (pos : Nat), w'.volume = s.kernel.volume → pos < 2 ^ 31 → ∀ d,
      ShowsFile dev g devSize w' (Function.update s.files fd ((s.files fd).seek pos) d)
        (Function.update views fd { views fd with pos := pos } d) := by
    intro w' pos hvolume hpos d
    by_cases hd : d = fd
    · subst hd
      rw [Function.update_self, Function.update_self]
      exact (h d).moved hvolume hpos
    · rw [Function.update_of_ne hd, Function.update_of_ne hd]
      exact (h d).kept hvolume
  cases c with
  | read buf size =>
    obtain ⟨w', hread, hvolume⟩ := ext2ReadCall_view hdev hbs.1 (h fd) buf hc hfuel
    dsimp only at hread
    refine ⟨⟨w', Function.update s.files fd ((s.files fd).seek ((views fd).pos +
      (((views fd).content.drop (views fd).pos).take size).length))⟩, ?_, hvolume, hall w' _ hvolume ?_⟩
    · show Option.map _ (ext2ReadCall dev g fuel s.kernel (s.files fd).toExt2File buf size) = _
      rw [hread]
      rfl
    · have hsize := (h fd).blocks.size_le hbs.1
      have hpos := (h fd).pos_lt
      rw [List.length_take, List.length_drop, (h fd).content, fileContent_length]
      have hblock : s.kernel.volume.toExt2FsInstance.blockSize ≤ 4096 := hbs.2
      omega
  | seek offset whence =>
    obtain ⟨hreply, pos, hpos, hfile, hview⟩ := ext2Seek_view (h fd) hc whence
    refine ⟨{ s with files := Function.update s.files fd ((s.files fd).seek pos) }, ?_, rfl, ?_⟩
    · show some (HandleReply.seek _ (ext2Seek _ _ _).2.currentOctet, _) = _
      rw [hreply, hfile]
    · rw [hview]
      exact hall s.kernel pos rfl hpos

end

/-- The file of `threeBytes`, just opened. -/
def justOpened : FileHandle := ⟨⟨0, 0, 2⟩, 3⟩

theorem justOpened_shows : ShowsFile (blockdevOf tenBlocks fun _ _ => 0) noFileGarbage tenBlocks.size threeBytes
    justOpened ⟨[97, 98, 99], 3, 0⟩ where
  flags := by decide
  ino := by decide
  blocks := by
    intro n hn
    have hcount : blockCount threeBytes.volume.toExt2FsInstance
        (threeBytes.inodeOf (blockdevOf tenBlocks fun _ _ => 0) noFileGarbage justOpened) = 1 := by
      decide +kernel
    obtain rfl : n = 0 := Nat.lt_one_iff.mp (hcount ▸ hn)
    unfold DirectBlock
    decide +kernel
  content := by decide +kernel
  bound := rfl
  pos := rfl
  bound_lt := by decide
  pos_lt := by decide

end Desiros.Fs

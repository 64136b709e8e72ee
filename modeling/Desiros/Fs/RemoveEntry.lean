import Desiros.Fs.Directory

/-!
# Removing a record (`remove_dir_entry`)

`removeDirEntry_records` says what `remove_dir_entry` makes of the first block of a directory: the records behind the
one of the name move to its place, and the last record takes its bytes. A record that is alone in the block stays.
-/

namespace Desiros.Fs

open Desiros.Library

/-- The last record is longer by `d`. -/
def extendLast (d : Nat) : List (Nat × DirRecord) → List (Nat × DirRecord)
  | [] => []
  | [x] => [(x.1 + d, x.2)]
  | x :: y :: rs => x :: extendLast d (y :: rs)

/-- The records without the first one of the name, whose bytes the last one takes. -/
def withoutName (name : List UInt8) (rs : List (Nat × DirRecord)) : List (Nat × DirRecord) :=
  match rs.find? fun x => x.2.name = name with
  | some x => if rs.length = 1 then rs else extendLast x.1 (rs.erase x)
  | none => rs

section

variable {d : Nat} {name : List UInt8} {x : Nat × DirRecord} {rs pre post : List (Nat × DirRecord)}

theorem extendLast_cons (d : Nat) (x : Nat × DirRecord) (h : rs ≠ []) :
    extendLast d (x :: rs) = x :: extendLast d rs := by
  cases rs with
  | nil => exact absurd rfl h
  | cons y rs => rfl

theorem extendLast_concat (d : Nat) (rs : List (Nat × DirRecord)) (x : Nat × DirRecord) :
    extendLast d (rs ++ [x]) = rs ++ [(x.1 + d, x.2)] := by
  induction rs with
  | nil => rfl
  | cons y rs ih =>
    rw [List.cons_append, extendLast_cons d y (List.append_ne_nil_of_right_ne_nil _ (List.cons_ne_nil _ _)), ih]
    rfl

theorem extendLast_append (d : Nat) (rs : List (Nat × DirRecord)) (h : post ≠ []) :
    extendLast d (rs ++ post) = rs ++ extendLast d post := by
  obtain ⟨init, x, rfl⟩ := (List.eq_nil_or_concat' post).resolve_left h
  rw [← List.append_assoc, extendLast_concat, extendLast_concat, List.append_assoc]

@[simp] theorem extendLast_records (d : Nat) (rs : List (Nat × DirRecord)) :
    (extendLast d rs).map Prod.snd = rs.map Prod.snd := by
  rcases List.eq_nil_or_concat rs with rfl | ⟨init, x, rfl⟩
  · rfl
  · rw [List.concat_eq_append, extendLast_concat]
    simp

theorem withoutName_absent (h : ∀ y ∈ rs, y.2.name ≠ name) : withoutName name rs = rs := by
  unfold withoutName
  rw [List.find?_eq_none.mpr (by simpa using h)]

theorem withoutName_split (hpre : ∀ y ∈ pre, y.2.name ≠ name) (hx : x.2.name = name) :
    withoutName name (pre ++ x :: post) =
      if pre ++ post = [] then pre ++ x :: post else extendLast x.1 (pre ++ post) := by
  have hfind : (pre ++ x :: post).find? (fun y => decide (y.2.name = name)) = some x := by
    rw [List.find?_eq_some_iff_append]
    exact ⟨decide_eq_true hx, pre, post, rfl, by simpa using hpre⟩
  have hmem : x ∉ pre := fun hin => hpre x hin hx
  have hlen : (pre ++ x :: post).length = 1 ↔ pre ++ post = [] := by
    rw [← List.length_eq_zero_iff]
    simp only [List.length_append, List.length_cons]
    omega
  unfold withoutName
  rw [hfind]
  dsimp only
  rw [List.erase_append_right _ hmem, List.erase_cons_head]
  simp only [hlen]

/-- Either nothing changes, or one of several records goes. -/
theorem withoutName_cases (name : List UInt8) (rs : List (Nat × DirRecord)) :
    withoutName name rs = rs ∧ ((∀ y ∈ rs, y.2.name ≠ name) ∨ rs.length = 1) ∨
      ∃ pre x post, rs = pre ++ x :: post ∧ x.2.name = name ∧ pre ++ post ≠ [] ∧
        withoutName name rs = extendLast x.1 (pre ++ post) := by
  cases hfind : rs.find? fun x => decide (x.2.name = name) with
  | none =>
    have habsent : ∀ y ∈ rs, y.2.name ≠ name := by simpa using List.find?_eq_none.mp hfind
    exact Or.inl ⟨withoutName_absent habsent, Or.inl habsent⟩
  | some x =>
    obtain ⟨hx, pre, post, rfl, hpre⟩ := List.find?_eq_some_iff_append.mp hfind
    have hpre : ∀ y ∈ pre, y.2.name ≠ name := by simpa using hpre
    have hsplit : withoutName name (pre ++ x :: post) = _ := withoutName_split hpre (of_decide_eq_true hx)
    by_cases hnil : pre ++ post = []
    · rw [if_pos hnil] at hsplit
      obtain ⟨rfl, rfl⟩ := List.append_eq_nil_iff.mp hnil
      exact Or.inl ⟨hsplit, Or.inr rfl⟩
    · rw [if_neg hnil] at hsplit
      exact Or.inr ⟨pre, x, post, rfl, of_decide_eq_true hx, hnil, hsplit⟩

theorem withoutName_sublist (name : List UInt8) (rs : List (Nat × DirRecord)) :
    ((withoutName name rs).map Prod.snd).Sublist (rs.map Prod.snd) := by
  rcases withoutName_cases name rs with ⟨heq, -⟩ | ⟨pre, x, post, rfl, -, -, heq⟩
  · rw [heq]
  · rw [heq, extendLast_records]
    exact (List.sublist_cons_self x post).append_left pre |>.map _

theorem mem_extendLast {y : Nat × DirRecord} (h : y ∈ extendLast d rs) :
    y ∈ rs ∨ ∃ z ∈ rs, y = (z.1 + d, z.2) := by
  rcases List.eq_nil_or_concat' rs with rfl | ⟨init, x, rfl⟩
  · exact Or.inl h
  · rw [extendLast_concat] at h
    rcases List.mem_append.mp h with h | h
    · exact Or.inl (List.mem_append_left _ h)
    · exact Or.inr ⟨x, List.mem_append_right _ List.mem_cons_self, List.mem_singleton.mp h⟩

theorem withoutName_aligned (name : List UInt8) (h : ∀ y ∈ rs, 4 ∣ y.1) : ∀ y ∈ withoutName name rs, 4 ∣ y.1 := by
  rcases withoutName_cases name rs with ⟨heq, -⟩ | ⟨pre, x, post, rfl, -, -, heq⟩
  · rw [heq]
    exact h
  · rw [heq]
    have hkept : ∀ z ∈ pre ++ post, 4 ∣ z.1 := fun z hz =>
      h z (((List.sublist_cons_self x post).append_left pre).subset hz)
    intro y hy
    rcases mem_extendLast hy with hy | ⟨z, hz, rfl⟩
    · exact hkept y hy
    · exact Nat.dvd_add (hkept z hz) (h x (List.mem_append_right _ List.mem_cons_self))

theorem withoutName_length (name : List UInt8) (rs : List (Nat × DirRecord)) :
    (withoutName name rs).length ≤ rs.length := by
  have h := (withoutName_sublist name rs).length_le
  rwa [List.length_map, List.length_map] at h

end

/-! ## Buffers -/

section

variable {dir : Bytes} {r : DirRecord} {name : List UInt8}

theorem dirAt_terminateName (dir : Bytes) : (dirAt (terminateName dir) 0).recLen = (dirAt dir 0).recLen ∧
    (dirAt (terminateName dir) 0).nameLen = (dirAt dir 0).nameLen ∧
    (dirAt (terminateName dir) 0).record = (dirAt dir 0).record := by
  apply dirAt_eq_of_agree
  intro i hi
  exact Function.update_of_ne (by omega) _ _

/-- The comparison with the name of an entry. -/
theorem strcmp_nameOf (hrecord : (dirAt dir 0).record = r) (hr : 0 ∉ r.name) :
    strcmp name (nameOf (terminateName dir)) = 0 ↔ r.name = name := by
  have hchars : (dirAt (terminateName dir) 0).chars = r.name :=
    (congrArg DirRecord.name (dirAt_terminateName dir).2.2).trans (congrArg DirRecord.name hrecord)
  unfold nameOf
  rw [hchars, cString_of_not_mem hr, strcmp_eq_zero]
  exact eq_comm

end

/-! ## The loop -/

section

variable {addrDebut c n d : Nat} {name : List UInt8} {s : RemoveState} {r : DirRecord}

/-- A turn over an entry of another name. -/
theorem removeDirEntryTurn_skip (hpos : s.curPos = c) (hlen : (dirAt s.dir 0).recLen = n)
    (hrecord : (dirAt s.dir 0).record = r) (hr : 0 ∉ r.name) (hne : r.name ≠ name) (hdec : s.dec = 0)
    (hlow : c + n < 2 ^ 32) :
    removeDirEntryTurn addrDebut name s =
      { fs := s.fs
        dir := readInto s.fs (terminateName s.dir) sizeofExt2Directory (c + n)
        dir2 := terminateName s.dir
        curPos := c + n
        curPos2 := c
        dec := 0 } := by
  unfold removeDirEntryTurn
  dsimp only
  rw [if_neg (mt (strcmp_nameOf hrecord hr).mp hne), hdec, if_neg (lt_irrefl 0), (dirAt_terminateName s.dir).1, hlen,
    hpos, Nat.mod_eq_of_lt hlow]

/-- The buffer that a turn writes behind the entry of the name. -/
def shiftedEntry (fs : Ext2FsInstance) (addrDebut d : Nat) (dir : Bytes) (pos : Nat) : Bytes :=
  let next := readInto fs (terminateName dir) sizeofExt2Directory pos
  if beforeLast fs addrDebut next pos then next else setRecLen next ((dirAt next 0).recLen + d)

theorem removeDirEntryTurn_shift (hpos : s.curPos = c) (hlen : (dirAt s.dir 0).recLen = n)
    (hrecord : (dirAt s.dir 0).record = r) (hr : 0 ∉ r.name) (hdec : (if r.name = name then n else s.dec) = d)
    (hd : 0 < d) (hle : d ≤ c + n) (hlow : c + n < 2 ^ 32) :
    removeDirEntryTurn addrDebut name s =
      { fs := writeData s.fs (shiftedEntry s.fs addrDebut d s.dir (c + n))
          (dirAt (shiftedEntry s.fs addrDebut d s.dir (c + n)) 0).recLen (c + n - d)
        dir := shiftedEntry s.fs addrDebut d s.dir (c + n)
        dir2 := terminateName s.dir
        curPos := c + n
        curPos2 := c
        dec := d } := by
  have hback : (c + n + 2 ^ 32 - d) % 2 ^ 32 = c + n - d := by omega
  unfold removeDirEntryTurn shiftedEntry
  dsimp only
  simp only [strcmp_nameOf hrecord hr, (dirAt_terminateName s.dir).1, hlen, hpos, hdec, if_pos hd, Nat.mod_eq_of_lt hlow,
    hback, ite_not]

/-- A written entry lies where it was written. -/
theorem recordsAt_of_write {m : Bytes} (buf : Bytes) {count pos stop : Nat} {r : DirRecord}
    {rs : List (Nat × DirRecord)} (hbytes : ∀ i < count, m (pos + i) = buf i) (hlen : (dirAt buf 0).recLen = count)
    (hrecord : (dirAt buf 0).record = r) (hfits : 8 + r.name.length ≤ count) (hrest : RecordsAt m (pos + count) stop rs) :
    RecordsAt m pos stop ((count, r) :: rs) := by
  have hname := record_name_length buf 0
  rw [hrecord] at hname
  obtain ⟨hlen', -, hrecord'⟩ := dirAt_of_write hbytes (by omega)
  exact ⟨hlen'.trans hlen, hrecord'.trans hrecord, hfits, hrest⟩

theorem removeDirEntryLoop_done (h : ¬ beforeLast s.fs addrDebut s.dir s.curPos) (fuel : Nat) :
    removeDirEntryLoop addrDebut name (fuel + 1) s = some s := by
  rw [removeDirEntryLoop, if_neg h]

/-- The entries behind the removed one move to its place, and the last one takes its bytes. -/
theorem removeDirEntryLoop_shift (hd : 0 < d) {stop : Nat} (hlow : stop ≤ 2 ^ 31) {rs : List (Nat × DirRecord)} :
    ∀ {fuel c n : Nat} {s : RemoveState} {r : DirRecord}, s.curPos = c → (dirAt s.dir 0).recLen = n →
      (dirAt s.dir 0).record = r → 0 ∉ r.name → (if r.name = name then n else s.dec) = d →
      addrDebut + s.fs.blockSize = stop → s.fs.blockSize < 65536 → RecordsAt s.fs.disk (c + n) stop rs → rs ≠ [] →
      (∀ x ∈ rs, 0 ∉ x.2.name ∧ x.2.name ≠ name) → addrDebut + d ≤ c + n → rs.length < fuel →
      ∃ m s', removeDirEntryLoop addrDebut name fuel s = some s' ∧ s'.dec = d ∧ s'.fs = { s.fs with disk := m } ∧
        (∀ i, i < c + n - d ∨ stop ≤ i → m i = s.fs.disk i) ∧ RecordsAt m (c + n - d) stop (extendLast d rs) := by
  induction rs with
  | nil => exact fun _ _ _ _ _ _ _ _ hne => absurd rfl hne
  | cons y rs ih =>
    intro fuel c n s r hpos hlen hrecord hr hdec hstop hbs h hne hnames hle hfuel
    obtain ⟨fuel, rfl⟩ := Nat.exists_eq_add_one.mpr (Nat.zero_lt_of_lt hfuel)
    obtain ⟨hylen, hyrecord, hyfits, hrest⟩ := h
    obtain ⟨hyname, hyne⟩ := hnames y List.mem_cons_self
    have hend := hrest.stop_eq
    have hbefore : beforeLast s.fs addrDebut s.dir s.curPos := by
      unfold beforeLast
      rw [hlen, hpos, hstop]
      omega
    rw [removeDirEntryLoop, if_pos hbefore, removeDirEntryTurn_shift hpos hlen hrecord hr hdec hd (by omega) (by omega)]
    have hnext := (holds_readInto s.fs (terminateName s.dir) (c + n)).dirAt
    rw [hylen, hyrecord] at hnext
    cases rs with
    | nil =>
      -- the last record takes the bytes
      have hend : stop = c + n + y.1 := hend
      have hlast : ¬ beforeLast s.fs addrDebut (readInto s.fs (terminateName s.dir) sizeofExt2Directory (c + n))
          (c + n) := by
        unfold beforeLast
        rw [hnext.1, hstop]
        omega
      have hbuf : shiftedEntry s.fs addrDebut d s.dir (c + n) =
          setRecLen (readInto s.fs (terminateName s.dir) sizeofExt2Directory (c + n)) (y.1 + d) := by
        unfold shiftedEntry
        dsimp only
        rw [if_neg hlast, hnext.1]
      obtain ⟨hset, -, hsetRecord⟩ := dirAt_setRecLen
        (readInto s.fs (terminateName s.dir) sizeofExt2Directory (c + n)) (show y.1 + d < 65536 by omega)
      rw [hbuf, hset]
      generalize setRecLen (readInto s.fs (terminateName s.dir) sizeofExt2Directory (c + n)) (y.1 + d) = buf at *
      have hdone : ¬ beforeLast (writeData s.fs buf (y.1 + d) (c + n - d)) addrDebut buf (c + n) := by
        unfold beforeLast
        rw [hset, show (writeData s.fs buf (y.1 + d) (c + n - d)).blockSize = s.fs.blockSize from rfl, hstop]
        omega
      obtain ⟨fuel, rfl⟩ := Nat.exists_eq_add_one.mpr (Nat.lt_of_succ_lt_succ hfuel)
      refine ⟨(writeData s.fs buf (y.1 + d) (c + n - d)).disk,
        ⟨writeData s.fs buf (y.1 + d) (c + n - d), buf, terminateName s.dir, c + n, c, d⟩, ?_, rfl, rfl, ?_, ?_⟩
      · rw [removeDirEntryLoop, if_neg hdone]
      · exact fun i hi => if_neg (by omega)
      · apply recordsAt_of_write buf _ hset (hsetRecord.trans hnext.2.2) (by omega)
        · show c + n - d + (y.1 + d) = stop
          omega
        · exact fun i hi => writeData_disk_of_lt hi
    | cons z rs =>
      have hzfits := hrest.2.2.1
      have hmore : beforeLast s.fs addrDebut (readInto s.fs (terminateName s.dir) sizeofExt2Directory (c + n))
          (c + n) := by
        rw [recordBytes_cons] at hend
        unfold beforeLast
        rw [hnext.1, hstop]
        omega
      have hbuf : shiftedEntry s.fs addrDebut d s.dir (c + n) =
          readInto s.fs (terminateName s.dir) sizeofExt2Directory (c + n) := by
        unfold shiftedEntry
        dsimp only
        rw [if_pos hmore]
      rw [hbuf, hnext.1]
      generalize readInto s.fs (terminateName s.dir) sizeofExt2Directory (c + n) = buf at *
      have hlater : RecordsAt (writeData s.fs buf y.1 (c + n - d)).disk (c + n + y.1) stop (z :: rs) := by
        refine hrest.congr ?_
        intro i hi _
        exact if_neg (by omega)
      obtain ⟨m, s', hloop, hdec', hfs, hkept, hrecords⟩ := ih (c := c + n) (n := y.1) (r := y.2)
        (s := ⟨writeData s.fs buf y.1 (c + n - d), buf, terminateName s.dir, c + n, c, d⟩) rfl hnext.1 hnext.2.2 hyname
        (if_neg hyne) hstop hbs hlater (List.cons_ne_nil _ _) (fun x hx => hnames x (List.mem_cons_of_mem _ hx))
        (by omega) (Nat.lt_of_succ_lt_succ hfuel)
      refine ⟨m, s', hloop, hdec', hfs, ?_, ?_⟩
      · intro i hi
        rw [hkept i (by omega)]
        exact if_neg (by omega)
      · rw [extendLast_cons d y (List.cons_ne_nil _ _)]
        apply recordsAt_of_write buf _ hnext.1 hnext.2.2 hyfits
        · rw [show c + n - d + y.1 = c + n + y.1 - d by omega]
          exact hrecords
        · intro i hi
          rw [hkept _ (by omega)]
          exact writeData_disk_of_lt hi

/-- The entries in front of the one of the name stay where they are. -/
theorem removeDirEntryLoop_skip {stop : Nat} (hlow : stop ≤ 2 ^ 31) {rest : List (Nat × DirRecord)} (hrest : rest ≠ [])
    (fuel : Nat) {pre : List (Nat × DirRecord)} : ∀ {c : Nat} {s : RemoveState}, s.curPos = c → Holds s.fs s.dir c →
      s.dec = 0 → addrDebut + s.fs.blockSize = stop → RecordsAt s.fs.disk c stop (pre ++ rest) →
      (∀ x ∈ pre, 0 ∉ x.2.name ∧ x.2.name ≠ name) →
      ∃ s', removeDirEntryLoop addrDebut name (fuel + pre.length) s = removeDirEntryLoop addrDebut name fuel s' ∧
        s'.fs = s.fs ∧ s'.curPos = c + recordBytes pre ∧ Holds s.fs s'.dir (c + recordBytes pre) ∧ s'.dec = 0 ∧
        (pre = [] → s' = s) ∧ ∀ init y, pre = init ++ [y] → s'.curPos2 = c + recordBytes init ∧
          (dirAt s'.dir2 0).recLen = y.1 ∧ (dirAt s'.dir2 0).record = y.2 := by
  induction pre with
  | nil =>
    intro c s hpos hdir hdec _ _ _
    exact ⟨s, rfl, rfl, hpos, hdir, hdec, fun _ => rfl, fun init y h => by simp at h⟩
  | cons x pre ih =>
    intro c s hpos hdir hdec hstop h hnames
    obtain ⟨hlen, hrecord, -, htail⟩ := id h
    obtain ⟨hxname, hxne⟩ := hnames x List.mem_cons_self
    have hx := hdir.dirAt
    rw [hlen, hrecord] at hx
    have hend := htail.stop_eq
    have hbefore : beforeLast s.fs addrDebut s.dir s.curPos := by
      rw [hpos]
      exact (beforeLast_iff (hstop ▸ h) hdir (by omega)).mpr (List.append_ne_nil_of_right_ne_nil _ hrest)
    rw [List.length_cons, ← Nat.add_assoc, removeDirEntryLoop, if_pos hbefore,
      removeDirEntryTurn_skip hpos hx.1 hx.2.2 hxname hxne hdec (by omega)]
    obtain ⟨s', hloop, hfs, hpos', hdir', hdec', hnil, hlast⟩ := ih (c := c + x.1)
      (s := ⟨s.fs, readInto s.fs (terminateName s.dir) sizeofExt2Directory (c + x.1), terminateName s.dir, c + x.1, c, 0⟩)
      rfl (holds_readInto s.fs _ _) rfl hstop htail fun y hy => hnames y (List.mem_cons_of_mem _ hy)
    rw [recordBytes_cons, ← Nat.add_assoc]
    refine ⟨s', hloop, hfs, hpos', hdir', hdec', fun h => absurd h (List.cons_ne_nil _ _), ?_⟩
    intro init y hinit
    cases init with
    | nil =>
      obtain ⟨rfl, rfl⟩ := List.cons.inj hinit
      rw [hnil rfl]
      exact ⟨rfl, (dirAt_terminateName s.dir).1.trans hx.1, (dirAt_terminateName s.dir).2.2.trans hx.2.2⟩
    | cons z init =>
      obtain ⟨rfl, hpre⟩ := List.cons.inj hinit
      rw [recordBytes_cons, ← Nat.add_assoc]
      exact hlast init y hpre

end

/-! ## `remove_dir_entry` -/

/-- The variables of `remove_dir_entry` in front of its loop. -/
def removeStart (fs : Ext2FsInstance) (g : Garbage) (addrDebut : Nat) : RemoveState :=
  ⟨fs, readInto fs g.dep sizeofExt2Directory addrDebut, g.dep, addrDebut, 0, 0⟩

section

variable {fs : Ext2FsInstance} {g : Garbage} {fuel inode addrDebut : Nat} {name : List UInt8}
  {pre post : List (Nat × DirRecord)} {x : Nat × DirRecord}

@[simp] theorem removeStart_fs : (removeStart fs g addrDebut).fs = fs := rfl

@[simp] theorem removeStart_curPos : (removeStart fs g addrDebut).curPos = addrDebut := rfl

theorem removeDirEntry_eq (haddr : addrInodeData fs g inode 0 = addrDebut) (hpos : addrDebut ≠ 0)
    (hlow : addrDebut < 2 ^ 31) : removeDirEntry fs g fuel inode name =
      (removeDirEntryLoop addrDebut name fuel (removeStart fs g addrDebut)).map (removeLast name) := by
  have hsign : signExtend addrDebut = addrDebut := if_pos hlow
  unfold removeDirEntry removeStart
  rw [haddr]
  dsimp only
  rw [if_neg hpos, hsign]

/-- The loop over entries of other names up to the last one. -/
theorem removeDirEntryLoop_last (h : RecordsAt fs.disk addrDebut (addrDebut + fs.blockSize) (pre ++ [x]))
    (hlow : addrDebut + fs.blockSize ≤ 2 ^ 31) (hfuel : pre.length < fuel)
    (hnames : ∀ y ∈ pre, 0 ∉ y.2.name ∧ y.2.name ≠ name) :
    ∃ s, removeDirEntryLoop addrDebut name fuel (removeStart fs g addrDebut) = some s ∧ s.fs = fs ∧
      Holds fs s.dir (addrDebut + recordBytes pre) ∧ s.dec = 0 ∧ (pre = [] → s.curPos2 = 0) ∧
      ∀ init y, pre = init ++ [y] → s.curPos2 = addrDebut + recordBytes init ∧ (dirAt s.dir2 0).recLen = y.1 ∧
        (dirAt s.dir2 0).record = y.2 := by
  obtain ⟨f, rfl⟩ := Nat.exists_eq_add_of_lt hfuel
  obtain ⟨s, hloop, hfs, hpos, hdir, hdec, hnil, hlast⟩ := removeDirEntryLoop_skip hlow (List.cons_ne_nil x []) (f + 1)
    (s := removeStart fs g addrDebut) rfl (holds_readInto fs _ _) rfl rfl h hnames
  rw [removeStart_fs, removeStart_curPos] at hdir
  rw [removeStart_fs] at hfs
  rw [removeStart_curPos] at hpos
  have hend : ¬ beforeLast s.fs addrDebut s.dir s.curPos := by
    rw [hfs, hpos, beforeLast_iff (recordsAt_append.mp h).2 hdir (by omega)]
    exact fun hne => hne rfl
  rw [removeDirEntryLoop_done hend] at hloop
  refine ⟨s, ?_, hfs, hdir, hdec, fun h => ?_, hlast⟩
  · rw [← hloop]
    congr 1
    omega
  · rw [hnil h]
    rfl

/-- No entry has the name. -/
theorem removeDirEntry_absent (haddr : addrInodeData fs g inode 0 = addrDebut) (hpos : addrDebut ≠ 0)
    (h : RecordsAt fs.disk addrDebut (addrDebut + fs.blockSize) (pre ++ [x]))
    (hlow : addrDebut + fs.blockSize ≤ 2 ^ 31) (hbs : 0 < fs.blockSize) (hfuel : pre.length < fuel)
    (hnames : ∀ y ∈ pre ++ [x], 0 ∉ y.2.name ∧ y.2.name ≠ name) : removeDirEntry fs g fuel inode name = some fs := by
  obtain ⟨s, hloop, hfs, hdir, hdec, -, -⟩ := removeDirEntryLoop_last (g := g) h hlow hfuel fun y hy =>
    hnames y (List.mem_append_left _ hy)
  obtain ⟨hx, hne⟩ := hnames x (List.mem_append_right _ List.mem_cons_self)
  have hrecord := hdir.dirAt.2.2.trans (recordsAt_append.mp h).2.2.1
  rw [removeDirEntry_eq haddr hpos (by omega), hloop, Option.map_some]
  unfold removeLast
  dsimp only
  rw [if_neg (mt (strcmp_nameOf hrecord hx).mp hne), hfs, ite_self]

/-- The entry is the only one. -/
theorem removeDirEntry_only (haddr : addrInodeData fs g inode 0 = addrDebut) (hpos : addrDebut ≠ 0)
    (h : RecordsAt fs.disk addrDebut (addrDebut + fs.blockSize) [x]) (hlow : addrDebut + fs.blockSize ≤ 2 ^ 31)
    (hbs : 0 < fs.blockSize) (hfuel : 0 < fuel) : removeDirEntry fs g fuel inode name = some fs := by
  obtain ⟨s, hloop, hfs, -, -, hnil, -⟩ := @removeDirEntryLoop_last fs g fuel addrDebut name [] x h hlow hfuel
    fun y hy => absurd hy List.not_mem_nil
  rw [removeDirEntry_eq haddr hpos (by omega), hloop, Option.map_some]
  unfold removeLast
  rw [if_neg fun hlast => hlast.2 (hnil rfl), hfs]

/-- The entry is the last one: the one in front of it takes its bytes. -/
theorem removeDirEntry_last {y : Nat × DirRecord} (haddr : addrInodeData fs g inode 0 = addrDebut) (hpos : addrDebut ≠ 0)
    (h : RecordsAt fs.disk addrDebut (addrDebut + fs.blockSize) (pre ++ [y] ++ [x]))
    (hlow : addrDebut + fs.blockSize ≤ 2 ^ 31) (hbs : fs.blockSize < 65536) (hfuel : pre.length + 1 < fuel)
    (hnames : ∀ z ∈ pre ++ [y], 0 ∉ z.2.name ∧ z.2.name ≠ name) (hx : 0 ∉ x.2.name ∧ x.2.name = name) :
    ∃ m, removeDirEntry fs g fuel inode name = some { fs with disk := m } ∧
      (∀ n, n < addrDebut ∨ addrDebut + fs.blockSize ≤ n → m n = fs.disk n) ∧
      RecordsAt m addrDebut (addrDebut + fs.blockSize) (pre ++ [(y.1 + x.1, y.2)]) := by
  have hlength : (pre ++ [y]).length < fuel := by
    rw [List.length_append]
    exact hfuel
  obtain ⟨s, hloop, hfs, hdir, hdec, -, hlast⟩ := removeDirEntryLoop_last (g := g) h hlow hlength hnames
  obtain ⟨hpos2, hlen2, hrecord2⟩ := hlast pre y rfl
  obtain ⟨hinit, hxlen, hxrecord, hxfits, hstop⟩ := recordsAt_append.mp h
  obtain ⟨hpre, hylen, hyrecord, hyfits, -⟩ := recordsAt_append.mp hinit
  have hrecord := hdir.dirAt.2.2.trans hxrecord
  have hlen : (dirAt (terminateName s.dir) 0).recLen = x.1 :=
    (dirAt_terminateName _).1.trans (hdir.dirAt.1.trans hxlen)
  have hstop : addrDebut + recordBytes (pre ++ [y]) + x.1 = addrDebut + fs.blockSize := hstop
  rw [recordBytes_append, recordBytes_cons, recordBytes_nil] at hstop
  obtain ⟨hset, -, hsetRecord⟩ := dirAt_setRecLen s.dir2 (show y.1 + x.1 < 65536 by omega)
  have hrun : removeDirEntry fs g fuel inode name =
      some (writeData fs (setRecLen s.dir2 (y.1 + x.1)) (y.1 + x.1) (addrDebut + recordBytes pre)) := by
    rw [removeDirEntry_eq haddr hpos (by omega), hloop, Option.map_some]
    unfold removeLast
    dsimp only
    rw [if_pos ⟨hdec, by omega⟩, if_pos ((strcmp_nameOf hrecord hx.1).mpr hx.2), hlen2, hlen, hset, hfs, hpos2]
  refine ⟨_, hrun, ?_, ?_⟩
  · exact fun n hn => if_neg (by omega)
  · rw [recordsAt_append]
    refine ⟨hpre.congr fun i _ hi => if_neg (by omega), ?_⟩
    apply recordsAt_of_write (setRecLen s.dir2 (y.1 + x.1)) _ hset (hsetRecord.trans hrecord2) (by omega)
    · show addrDebut + recordBytes pre + (y.1 + x.1) = _
      omega
    · exact fun i hi => writeData_disk_of_lt hi

/-- Others stand behind the entry. -/
theorem removeDirEntry_inner (haddr : addrInodeData fs g inode 0 = addrDebut) (hpos : addrDebut ≠ 0)
    (h : RecordsAt fs.disk addrDebut (addrDebut + fs.blockSize) (pre ++ x :: post))
    (hlow : addrDebut + fs.blockSize ≤ 2 ^ 31) (hbs : fs.blockSize < 65536) (hfuel : pre.length + post.length < fuel)
    (hpre : ∀ z ∈ pre, 0 ∉ z.2.name ∧ z.2.name ≠ name) (hx : 0 ∉ x.2.name ∧ x.2.name = name) (hne : post ≠ [])
    (hpost : ∀ z ∈ post, 0 ∉ z.2.name ∧ z.2.name ≠ name) :
    ∃ m, removeDirEntry fs g fuel inode name = some { fs with disk := m } ∧
      (∀ n, n < addrDebut ∨ addrDebut + fs.blockSize ≤ n → m n = fs.disk n) ∧
      RecordsAt m addrDebut (addrDebut + fs.blockSize) (pre ++ extendLast x.1 post) := by
  obtain ⟨f, rfl⟩ := Nat.exists_eq_add_of_lt hfuel
  obtain ⟨s, hskip, hfs, hcur, hdir, hdec, -⟩ := removeDirEntryLoop_skip hlow (List.cons_ne_nil x post)
    (post.length + f + 1) (s := removeStart fs g addrDebut) rfl (holds_readInto fs _ _) rfl rfl h hpre
  rw [removeStart_fs, removeStart_curPos] at hdir
  rw [removeStart_fs] at hfs
  rw [removeStart_curPos] at hcur
  obtain ⟨hfirst, hlen, hrecord, hfits, hrest⟩ := recordsAt_append.mp h
  have hx' := hdir.dirAt
  rw [hlen, hrecord] at hx'
  have hend := hrest.stop_eq
  obtain ⟨m, s', hshift, hdec', hfs', hkept, hrecords⟩ := removeDirEntryLoop_shift (show 0 < x.1 by omega) hlow
    hcur hx'.1 hx'.2.2 hx.1 (if_pos hx.2) (by rw [hfs]) (by rw [hfs]; exact hbs)
    (by rw [hfs]; exact hrest) hne hpost (by omega) (show post.length < post.length + f + 1 by omega)
  rw [hfs] at hfs' hkept
  rw [Nat.add_sub_cancel] at hkept hrecords
  refine ⟨m, ?_, ?_, ?_⟩
  · rw [removeDirEntry_eq haddr hpos (by omega), show pre.length + post.length + f + 1 = post.length + f + 1 + pre.length
      by omega, hskip, hshift, Option.map_some]
    unfold removeLast
    rw [if_neg fun hlast => by omega, hfs']
  · exact fun n hn => hkept n (by omega)
  · rw [recordsAt_append]
    exact ⟨hfirst.congr fun i _ hi => hkept i (Or.inl hi), hrecords⟩

/-- **A removed entry**: the records of the first block become those without the name, and nothing outside of the block
changes. -/
theorem removeDirEntry_records {rs : List (Nat × DirRecord)} (haddr : addrInodeData fs g inode 0 = addrDebut)
    (hpos : addrDebut ≠ 0) (h : RecordsAt fs.disk addrDebut (addrDebut + fs.blockSize) rs)
    (hlow : addrDebut + fs.blockSize ≤ 2 ^ 31) (hbs : 0 < fs.blockSize ∧ fs.blockSize < 65536) (hfuel : rs.length < fuel)
    (hstrings : ∀ y ∈ rs, 0 ∉ y.2.name) (hdistinct : rs.Pairwise fun y z => y.2.name ≠ z.2.name) :
    ∃ m, removeDirEntry fs g fuel inode name = some { fs with disk := m } ∧
      (∀ n, n < addrDebut ∨ addrDebut + fs.blockSize ≤ n → m n = fs.disk n) ∧
      RecordsAt m addrDebut (addrDebut + fs.blockSize) (withoutName name rs) := by
  have hne : rs ≠ [] := by
    rintro rfl
    have hend := h.stop_eq
    rw [recordBytes_nil] at hend
    omega
  by_cases habsent : ∀ y ∈ rs, y.2.name ≠ name
  · refine ⟨fs.disk, ?_, fun _ _ => rfl, ?_⟩
    · obtain ⟨pre, x, rfl⟩ := (List.eq_nil_or_concat' rs).resolve_left hne
      rw [List.length_append] at hfuel
      exact removeDirEntry_absent haddr hpos h hlow hbs.1 (by omega) fun y hy => ⟨hstrings y hy, habsent y hy⟩
    · rw [withoutName_absent habsent]
      exact h
  · push Not at habsent
    obtain ⟨x, hmem, hx⟩ := habsent
    obtain ⟨pre, post, rfl⟩ := List.append_of_mem hmem
    obtain ⟨-, htail, hcross⟩ := List.pairwise_append.mp hdistinct
    have hpre : ∀ y ∈ pre, 0 ∉ y.2.name ∧ y.2.name ≠ name := fun y hy =>
      ⟨hstrings y (List.mem_append_left _ hy), hx ▸ hcross y hy x List.mem_cons_self⟩
    have hpost : ∀ y ∈ post, 0 ∉ y.2.name ∧ y.2.name ≠ name := fun y hy =>
      ⟨hstrings y (List.mem_append_right _ (List.mem_cons_of_mem _ hy)),
        fun heq => (List.pairwise_cons.mp htail).1 y hy (hx.trans heq.symm)⟩
    have hxname : 0 ∉ x.2.name := hstrings x hmem
    rw [withoutName_split (fun y hy => (hpre y hy).2) hx]
    rw [List.length_append, List.length_cons] at hfuel
    by_cases hlast : post = []
    · subst hlast
      rcases List.eq_nil_or_concat' pre with rfl | ⟨init, y, rfl⟩
      · exact ⟨fs.disk, removeDirEntry_only haddr hpos h hlow hbs.1 (by omega), fun _ _ => rfl, h⟩
      · rw [List.append_nil, if_neg (List.append_ne_nil_of_right_ne_nil _ (List.cons_ne_nil _ _)), extendLast_concat]
        rw [List.length_append] at hfuel
        exact removeDirEntry_last haddr hpos h hlow hbs.2 (by omega) hpre ⟨hxname, hx⟩
    · rw [if_neg (List.append_ne_nil_of_right_ne_nil _ hlast), extendLast_append _ _ hlast]
      exact removeDirEntry_inner haddr hpos h hlow hbs.2 (by omega) hpre ⟨hxname, hx⟩ hlast hpost

end

end Desiros.Fs

import Desiros.Exec.ElfImage

/-!
# Page faults of a program (`elf32.c`)

`elf32prog_no_page` is meant to fill the page of the fault with the bytes of the program from `offset_in_prog` on and
with zeros behind the end of the program, and to leave the other pages alone (`PagedIn`). It clears from
`uaddr + size_to_copy` instead of `upage_uaddr + size_to_copy` on, and `size_to_copy` wraps around behind the end of the
program. `elf_pageIn_iff` says which faults are served.
-/

namespace Desiros.Exec

open Desiros.Library Desiros.Mem

/-- The page of `uaddr` in the user's memory behind the fault, which was `user` before. -/
structure PagedIn (prog : ElfProgram) (arena : UvmmArena) (uaddr : UInt32) (user after : Bytes) : Prop where
  bytes : ∀ i < 4096, after ((pageAlignInf uaddr).toNat + i) =
    if (offsetInProg arena uaddr).toNat + i < prog.size.toNat then prog.mem ((offsetInProg arena uaddr).toNat + i) else 0
  outside : ∀ v, ¬ ((pageAlignInf uaddr).toNat ≤ v ∧ v < (pageAlignInf uaddr).toNat + 4096) → after v = user v

/-- Whatever the new page and the memory hold. -/
def PageInRight (prog : ElfProgram) (arena : UvmmArena) (uaddr : UInt32) : Prop :=
  ∀ page user, (elf32progNoPage prog arena uaddr page user).1 = 0 →
    PagedIn prog arena uaddr user (elf32progNoPage prog arena uaddr page user).2

/-- The page ends in front of the end of the program, or starts there and the fault is at its start. Behind the end of
the program the difference has to wrap around to a page at most, of zeros. -/
def PageInServed (prog : ElfProgram) (arena : UvmmArena) (uaddr : UInt32) : Prop :=
  (offsetInProg arena uaddr).toNat + 4096 ≤ prog.size.toNat ∨
    (offsetInProg arena uaddr).toNat ≤ prog.size.toNat ∧ uaddr.toNat % 4096 = 0 ∨
    prog.size.toNat < (offsetInProg arena uaddr).toNat ∧
      ((elfCopy prog arena uaddr).len = 4096 ∨ (elfCopy prog arena uaddr).len < 4096 ∧ uaddr.toNat % 4096 = 0) ∧
      ∀ i < (elfCopy prog arena uaddr).len, prog.byte ((offsetInProg arena uaddr).toNat + i) = 0

section

variable {prog : ElfProgram} {arena : UvmmArena} {uaddr : UInt32} {page : NewPage} {user : Bytes} {v : Nat}

/-- The byte at `v` behind the fault: cleared, copied, left over in the new page, or as before. -/
theorem elf32progNoPage_value (hpage : page.ppagePaddr ≠ 0) :
    (elf32progNoPage prog arena uaddr page user).1 = 0 ∧
    (elf32progNoPage prog arena uaddr page user).2 v =
      if (elfCopy prog arena uaddr).len < 4096 ∧ uaddr.toNat + (elfCopy prog arena uaddr).len ≤ v ∧
        v < uaddr.toNat + 4096 then 0
      else if (pageAlignInf uaddr).toNat ≤ v ∧ v < (pageAlignInf uaddr).toNat + (elfCopy prog arena uaddr).len then
        prog.byte ((elfCopy prog arena uaddr).pos + (v - (pageAlignInf uaddr).toNat))
      else if (pageAlignInf uaddr).toNat ≤ v ∧ v < (pageAlignInf uaddr).toNat + 4096 then
        page.contents (v - (pageAlignInf uaddr).toNat)
      else user v := by
  unfold elf32progNoPage
  dsimp only
  rw [if_neg hpage]
  generalize elfCopy prog arena uaddr = copy
  by_cases hshort : copy.len < 4096
  · rw [if_pos hshort]
    refine ⟨rfl, ?_⟩
    dsimp only
    by_cases hclear : uaddr.toNat + copy.len ≤ v ∧ v < uaddr.toNat + 4096
    · rw [fillBytes_of_mem (by omega), if_pos ⟨hshort, hclear⟩]
    · rw [fillBytes_of_not_mem (by omega), if_neg fun h => hclear h.2]
      rfl
  · rw [if_neg hshort, if_neg fun h => hshort h.1]
    exact ⟨rfl, rfl⟩

/-- Where the bytes to clear are those behind the copied ones, no other page changes. -/
theorem elf32progNoPage_page (hpage : page.ppagePaddr ≠ 0) (hlen : (elfCopy prog arena uaddr).len = 4096 ∨
    (elfCopy prog arena uaddr).len < 4096 ∧ uaddr.toNat % 4096 = 0) :
    (∀ i < 4096, (elf32progNoPage prog arena uaddr page user).2 ((pageAlignInf uaddr).toNat + i) =
      if i < (elfCopy prog arena uaddr).len then prog.byte ((elfCopy prog arena uaddr).pos + i) else 0) ∧
    ∀ v, ¬ ((pageAlignInf uaddr).toNat ≤ v ∧ v < (pageAlignInf uaddr).toNat + 4096) →
      (elf32progNoPage prog arena uaddr page user).2 v = user v := by
  have hupage := toNat_pageAlignInf uaddr
  constructor
  · intro i hi
    rw [(elf32progNoPage_value hpage).2]
    by_cases hcopied : i < (elfCopy prog arena uaddr).len
    · rw [if_neg (by omega), if_pos (by omega), if_pos hcopied, Nat.add_sub_cancel_left]
    · rw [if_pos (by omega), if_neg hcopied]
  · intro v hv
    rw [(elf32progNoPage_value hpage).2, if_neg (by omega), if_neg (by omega), if_neg hv]

/-- The law, on `size_to_copy`. -/
theorem pageInRight_iff : PageInRight prog arena uaddr ↔
    ((elfCopy prog arena uaddr).len = 4096 ∨ (elfCopy prog arena uaddr).len < 4096 ∧ uaddr.toNat % 4096 = 0) ∧
      ∀ i < 4096, (if i < (elfCopy prog arena uaddr).len then prog.byte ((elfCopy prog arena uaddr).pos + i) else 0) =
        if (offsetInProg arena uaddr).toNat + i < prog.size.toNat then prog.mem ((offsetInProg arena uaddr).toNat + i)
        else 0 := by
  have hupage := toNat_pageAlignInf uaddr
  constructor
  · intro h
    -- a memory of one byte everywhere, which is not what is written behind the page
    have hright := fun b => h ⟨4096, fun _ => 255⟩ (fun _ => b) (elf32progNoPage_value (v := 0) (by decide)).1
    have hafter := fun b v => (@elf32progNoPage_value prog arena uaddr ⟨4096, fun _ => 255⟩ (fun _ => b) v (by decide)).2
    have hle : (elfCopy prog arena uaddr).len ≤ 4096 := by
      by_contra hlong
      have hsame := fun b => (hright b).outside ((pageAlignInf uaddr).toNat + 4096) (by omega)
      have hcopied : ∀ b : UInt8, prog.byte ((elfCopy prog arena uaddr).pos + 4096) = b := by
        intro b
        rw [← hsame b, hafter, if_neg (by omega), if_pos (by omega), Nat.add_sub_cancel_left]
      exact absurd ((hcopied 0).symm.trans (hcopied 1)) (by decide)
    have hlen : (elfCopy prog arena uaddr).len = 4096 ∨
        (elfCopy prog arena uaddr).len < 4096 ∧ uaddr.toNat % 4096 = 0 := by
      rcases Nat.eq_or_lt_of_le hle with heq | hlt
      · exact .inl heq
      · refine .inr ⟨hlt, ?_⟩
        by_contra hinside
        have hsame := (hright 1).outside (uaddr.toNat + 4095) (by omega)
        rw [hafter, if_pos (by omega)] at hsame
        exact absurd hsame (by decide)
    refine ⟨hlen, fun i hi => ?_⟩
    rw [← (hright 0).bytes i hi, (elf32progNoPage_page (by decide) hlen).1 i hi]
  · rintro ⟨hlen, hbytes⟩ page user hok
    have hpage : page.ppagePaddr ≠ 0 := by
      intro hnone
      unfold elf32progNoPage at hok
      rw [if_pos hnone] at hok
      cases hok
    obtain ⟨hcopied, hothers⟩ := @elf32progNoPage_page prog arena uaddr page user hpage hlen
    exact ⟨fun i hi => (hcopied i hi).trans (hbytes i hi), hothers⟩

theorem byte_of_lt {pos : Nat} (h : pos < prog.size.toNat) : prog.byte pos = prog.mem pos := by
  unfold ElfProgram.byte
  rw [Nat.mod_eq_of_lt (show pos < 2 ^ 32 from h.trans (word_lt _))]

end

/-- **Page faults of a program**: which of them bring in the page, whatever the new page and the memory hold. -/
theorem elf_pageIn_iff (prog : ElfProgram) (arena : UvmmArena) (uaddr : UInt32) :
    PageInRight prog arena uaddr ↔ PageInServed prog arena uaddr := by
  have hlen : (elfCopy prog arena uaddr).len = (sizeToCopy prog (offsetInProg arena uaddr)).toNat := by
    unfold elfCopy
    dsimp only
  have hpos : (elfCopy prog arena uaddr).pos = (offsetInProg arena uaddr).toNat := by
    unfold elfCopy
    dsimp only
  unfold PageInServed
  rw [pageInRight_iff, hlen, hpos]
  have hcopy := @sizeToCopy_inside prog (offsetInProg arena uaddr)
  generalize offsetInProg arena uaddr = offset at hcopy ⊢
  generalize (sizeToCopy prog offset).toNat = n at hcopy ⊢
  rcases Nat.lt_or_ge prog.size.toNat offset.toNat with hbehind | hle
  · -- behind the end of the program
    constructor
    · rintro ⟨hlen, hbytes⟩
      refine .inr (.inr ⟨hbehind, hlen, fun i hi => ?_⟩)
      have hbyte := hbytes i (by omega)
      rwa [if_pos hi, if_neg (by omega)] at hbyte
    · rintro (hin | ⟨hin, -⟩ | ⟨-, hlen, hzero⟩)
      · omega
      · omega
      · refine ⟨hlen, fun i hi => ?_⟩
        rw [if_neg (show ¬ offset.toNat + i < prog.size.toNat by omega)]
        split_ifs with hcopied
        · exact hzero i hcopied
        · rfl
  · have hn := hcopy hle
    have hbytes : ∀ i < 4096, (if i < n then prog.byte (offset.toNat + i) else 0) =
        if offset.toNat + i < prog.size.toNat then prog.mem (offset.toNat + i) else 0 := by
      intro i hi
      by_cases hcopied : i < n
      · have hin : offset.toNat + i < prog.size.toNat := by omega
        rw [if_pos hcopied, if_pos hin, byte_of_lt hin]
      · rw [if_neg hcopied, if_neg (by omega)]
    constructor
    · rintro ⟨hlen, -⟩
      rcases hlen with hlen | ⟨-, haligned⟩
      · exact .inl (by omega)
      · exact .inr (.inl ⟨hle, haligned⟩)
    · rintro (hin | ⟨-, haligned⟩ | ⟨hbehind, -⟩)
      · exact ⟨.inl (by omega), hbytes⟩
      · refine ⟨?_, hbytes⟩
        rcases Nat.lt_or_ge n 4096 with hlt | hge
        · exact .inr ⟨hlt, haligned⟩
        · exact .inl (by omega)
      · omega

/-- The arena of the segment of `elfFile 0`, which is 84 bytes long. -/
def elfFileArena : UvmmArena where
  id := 1
  start := 0x40000000
  size := 4096
  accessRights := 7
  flags := 0
  ops := some 1
  mappedResource := elfResource ⟨7, 1⟩ 2
  offsetInResource := 0

/-- A fault at the second byte of the page leaves byte 84 of the new page as it is, and clears the first byte of the
page behind it. -/
theorem elf_pageIn_unaligned : ¬ PageInRight (elfFile 0) elfFileArena 0x40000001 := by
  intro h
  have hzero := (h ⟨4096, fun _ => 255⟩ (fun _ => 255) (by decide)).bytes 84 (by decide)
  exact absurd hzero (by decide)

end Desiros.Exec

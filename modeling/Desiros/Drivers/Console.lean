import Desiros.Klibc.Memory
import Desiros.Klibc.Printf
import Desiros.Library.Runs

/-!
# The console (`console.c`)

A cell of the screen has two bytes, a character and its attribute, and `textmemptr` is the address of the first one.
`kputchar` writes a character (`put`), goes on to the next line at the right edge (`wrap`), scrolls at the bottom, and
moves the hardware cursor. The cursor stays on the screen, and a scroll moves the rows up (`kputchar_keeps`); but it
clears more than the last row: `kputchar_screen_iff`.
-/

namespace Desiros.Drivers

open Desiros.Library Desiros.Klibc

/-! ## The driver -/

/-- `ORIG_VIDEO_COLS` -/
def origVideoCols : Nat := 80
/-- `ORIG_VIDEO_LINES` -/
def origVideoLines : Nat := 25
/-- `VIDEO` -/
def video : Nat := 0xB8000
/-- `X86_VIDEO_FG_WHITE` -/
def fgWhite : UInt32 := 15
/-- `X86_VIDEO_BG_BLUE` -/
def bgBlue : UInt32 := (1 : UInt32) <<< 4
/-- `X86_VIDEO_BG_BLACK` -/
def bgBlack : UInt32 := (0 : UInt32) <<< 4

structure Console where
  textmemptr : Nat
  csrX : Int
  csrY : Int
  videoAtt : UInt32
  ram : Memory
  /-- The ports and bytes of `outb`, the last one first. -/
  outb : List (UInt16 × UInt8)

namespace Console

/-- The address of a cell. -/
def cell (k : Console) (n : Nat) : Nat := k.textmemptr + 2 * n

def scroll (k : Console) : Console :=
  if k.csrY ≥ origVideoLines then
    let temp := (k.csrY - origVideoLines + 1).toNat
    let ram := k.ram.memmove k.textmemptr (k.cell (temp * origVideoCols)) ((origVideoLines - temp) * origVideoCols * 2)
    let ram := ram.memset 0 (k.cell ((origVideoLines - temp) * origVideoCols)) 500
    { k with
      ram := ram
      csrY := origVideoLines - 1 }
  else k

def moveCsr (k : Console) : Console :=
  let temp := UInt32.ofInt (k.csrY * origVideoCols + k.csrX)
  { k with
    outb := (0x3D5, temp.toUInt8) :: (0x3D4, 15) :: (0x3D5, (temp >>> 8).toUInt8) :: (0x3D4, 14) :: k.outb }

/-- `for(i = 0; i < ORIG_VIDEO_LINES; i++) memset(...)` -/
def clearLines (k : Console) (lines : Nat) : Memory :=
  (List.range lines).foldl (fun ram i => ram.memset 0 (k.cell (i * origVideoCols)) origVideoCols) k.ram

def cls (k : Console) : Console :=
  moveCsr { k with
    ram := k.clearLines origVideoLines
    csrX := 0
    csrY := 0 }

/-- The cases of `kputchar` up to the one of a printable character. -/
def put (k : Console) (c : UInt8) : Console :=
  if c = 0x08 then { k with csrX := if k.csrX ≠ 0 then k.csrX - 1 else k.csrX }
  else if c = 0x09 then { k with csrX := (k.csrX + 8) / 8 * 8 }
  else if c = ch '\r' then { k with csrX := 0 }
  else if c = ch '\n' then
    { k with
      csrX := 0
      csrY := k.csrY + 1 }
  else if c ≥ ch ' ' then
    let place := k.cell (k.csrY * origVideoCols + k.csrX).toNat
    { k with
      ram := (k.ram.store place c).store (place + 1) k.videoAtt.toUInt8
      csrX := k.csrX + 1 }
  else k

/-- `if(csr_x >= ORIG_VIDEO_COLS)` -/
def wrap (k : Console) : Console :=
  if k.csrX ≥ origVideoCols then
    { k with
      csrX := 0
      csrY := k.csrY + 1 }
  else k

def kputchar (k : Console) (c : UInt8) : Console := (k.put c).wrap.scroll.moveCsr

/-- `kprintf`: what `do_printf` hands to `kputchar`. -/
def kprintf (k : Console) (e : Call) (fuel : Nat) : Except PrintfFault Console :=
  (doPrintf e fuel).map fun s => s.out.foldl kputchar k

/-- `"\tDESIROS kernel version : 0.0.1\n"` -/
def banner : List UInt8 :=
  ['\t', 'D', 'E', 'S', 'I', 'R', 'O', 'S', ' ', 'k', 'e', 'r', 'n', 'e', 'l', ' ', 'v', 'e', 'r', 's', 'i', 'o', 'n', ' ',
    ':', ' ', '0', '.', '0', '.', '1', '\n'].map ch

/-- `init_console`, from the memory and the variables that it finds. -/
def initConsole (k : Console) : Except PrintfFault Console :=
  let k := cls { k with textmemptr := video }
  let k := { k with videoAtt := fgWhite ||| bgBlue }
  (kprintf k ⟨textAt banner fun _ => 0, fun _ => 0, noStrings⟩ 64).map fun k =>
    { k with
      textmemptr := k.cell 80
      videoAtt := fgWhite ||| bgBlack }

/-! ## The screen -/

/-- The addresses of the 25 rows of 80 cells. -/
def OnScreen (k : Console) (a : Nat) : Prop :=
  k.textmemptr ≤ a ∧ a < k.cell (origVideoLines * origVideoCols)

/-- The bytes of a row. -/
def row (k : Console) (r : Nat) : List UInt8 := slice k.ram.mem (k.cell (r * origVideoCols)) (2 * origVideoCols)

structure InBounds (k : Console) : Prop where
  x : 0 ≤ k.csrX ∧ k.csrX < 80
  y : 0 ≤ k.csrY ∧ k.csrY < 25

/-- Rows 1 to 24 have become rows 0 to 23, and row 24 is blank. -/
structure MovedUp (k k' : Console) : Prop where
  moved : ∀ r < 24, k'.row r = k.row (r + 1)
  blank : k'.row 24 = List.replicate 160 0

/-- What holds of every call. -/
structure CallKeeps (k : Console) (c : UInt8) : Prop where
  bounds : (k.kputchar c).InBounds
  moved : (k.put c).wrap.csrY ≥ 25 → MovedUp (k.put c).wrap (k.kputchar c)

/-- The addresses that a call writes. -/
def callWrites (k : Console) (c : UInt8) : List Nat :=
  (kputchar { k with ram := ⟨k.ram.mem, []⟩ } c).ram.writes

/-- The whole law of a call. -/
structure CallRight (k : Console) (c : UInt8) : Prop where
  keeps : CallKeeps k c
  writes : ∀ a ∈ k.callWrites c, k.OnScreen a
  outside : ∀ a, ¬ k.OnScreen a → (k.kputchar c).ram.mem a = k.ram.mem a

/-- The byte leads from the last row to the next one. -/
def Scrolls (k : Console) (c : UInt8) : Prop :=
  k.csrY = 24 ∧ (c = ch '\n' ∨ (c = 0x09 ∧ 72 ≤ k.csrX) ∨ (c ≥ ch ' ' ∧ k.csrX = 79))

/-! ## A call -/

section

variable {k : Console} {c : UInt8}

/-- Memory changes on the screen only. -/
structure OnlyScreen (k k' : Console) : Prop where
  ptr : k'.textmemptr = k.textmemptr
  writes : ∀ a ∈ k'.ram.writes, a ∈ k.ram.writes ∨ k.OnScreen a
  outside : ∀ a, ¬ k.OnScreen a → k'.ram.mem a = k.ram.mem a

theorem OnlyScreen.of_same {k' : Console} (hptr : k'.textmemptr = k.textmemptr) (hram : k'.ram = k.ram) :
    OnlyScreen k k' :=
  ⟨hptr, fun _ ha => Or.inl (hram ▸ ha), fun _ _ => by rw [hram]⟩

/-- What `kputchar` does with a byte. -/
theorem put_cases (k : Console) (c : UInt8) :
    (c = 0x08 ∧ k.put c = { k with csrX := if k.csrX ≠ 0 then k.csrX - 1 else k.csrX }) ∨
      (c = 0x09 ∧ k.put c = { k with csrX := (k.csrX + 8) / 8 * 8 }) ∨
      (c = ch '\r' ∧ k.put c = { k with csrX := 0 }) ∨
      (c = ch '\n' ∧ k.put c = { k with
        csrX := 0
        csrY := k.csrY + 1 }) ∨
      ((c ≠ ch '\n' ∧ c ≠ 0x09 ∧ c ≥ ch ' ') ∧ k.put c = { k with
        ram := (k.ram.store (k.cell (k.csrY * origVideoCols + k.csrX).toNat) c).store
          (k.cell (k.csrY * origVideoCols + k.csrX).toNat + 1) k.videoAtt.toUInt8
        csrX := k.csrX + 1 }) ∨
      ((c ≠ ch '\n' ∧ c ≠ 0x09 ∧ ¬ c ≥ ch ' ') ∧ k.put c = k) := by
  unfold put
  by_cases hback : c = 0x08
  · exact Or.inl ⟨hback, if_pos hback⟩
  rw [if_neg hback]
  by_cases htab : c = 0x09
  · exact Or.inr (Or.inl ⟨htab, if_pos htab⟩)
  rw [if_neg htab]
  by_cases hreturn : c = ch '\r'
  · exact Or.inr (Or.inr (Or.inl ⟨hreturn, if_pos hreturn⟩))
  rw [if_neg hreturn]
  by_cases hline : c = ch '\n'
  · exact Or.inr (Or.inr (Or.inr (Or.inl ⟨hline, if_pos hline⟩)))
  rw [if_neg hline]
  by_cases hprint : c ≥ ch ' '
  · exact Or.inr (Or.inr (Or.inr (Or.inr (Or.inl ⟨⟨hline, htab, hprint⟩, if_pos hprint⟩))))
  · exact Or.inr (Or.inr (Or.inr (Or.inr (Or.inr ⟨⟨hline, htab, hprint⟩, if_neg hprint⟩))))

theorem put_onlyScreen (h : k.InBounds) : OnlyScreen k (k.put c) := by
  obtain ⟨hx, hy⟩ := h
  rcases put_cases k c with ⟨-, hput⟩ | ⟨-, hput⟩ | ⟨-, hput⟩ | ⟨-, hput⟩ | ⟨-, hput⟩ | ⟨-, hput⟩ <;> rw [hput]
  · exact OnlyScreen.of_same rfl rfl
  · exact OnlyScreen.of_same rfl rfl
  · exact OnlyScreen.of_same rfl rfl
  · exact OnlyScreen.of_same rfl rfl
  · have hplace : ∀ b < 2, k.OnScreen (k.cell (k.csrY * origVideoCols + k.csrX).toNat + b) := by
      intro b hb
      unfold OnScreen cell origVideoCols origVideoLines
      omega
    refine ⟨rfl, fun a ha => ?_, fun a ha => ?_⟩
    · rw [Memory.mem_store_writes, Memory.mem_store_writes] at ha
      rcases ha with rfl | rfl | ha
      · exact Or.inr (hplace 1 (by decide))
      · exact Or.inr (hplace 0 (by decide))
      · exact Or.inl ha
    · exact (if_neg fun heq : a = _ => ha (heq ▸ hplace 1 (by decide))).trans
        (if_neg fun heq : a = _ => ha (heq ▸ hplace 0 (by decide)))
  · exact OnlyScreen.of_same rfl rfl

theorem wrap_ram (k : Console) : k.wrap.ram = k.ram ∧ k.wrap.textmemptr = k.textmemptr := by
  unfold wrap
  split_ifs <;> exact ⟨rfl, rfl⟩

/-- A cursor behind the right edge goes on to the next line. -/
theorem wrap_cursor (hlow : 0 ≤ k.csrX) (hhigh : k.csrX ≤ 80) :
    (0 ≤ k.wrap.csrX ∧ k.wrap.csrX < 80) ∧ k.wrap.csrY = if k.csrX = 80 then k.csrY + 1 else k.csrY := by
  unfold wrap origVideoCols
  by_cases hedge : k.csrX = 80
  · rw [if_pos (by omega), if_pos hedge]
    exact ⟨⟨le_refl _, by dsimp only; decide⟩, rfl⟩
  · rw [if_neg (by omega), if_neg hedge]
    exact ⟨⟨hlow, by omega⟩, rfl⟩

/-- The cursor in front of the scroll: it has left the last row if the byte scrolls. -/
theorem put_wrap_cursor (h : k.InBounds) :
    (0 ≤ (k.put c).wrap.csrX ∧ (k.put c).wrap.csrX < 80) ∧
      0 ≤ (k.put c).wrap.csrY ∧ (k.put c).wrap.csrY ≤ 25 ∧ ((k.put c).wrap.csrY = 25 ↔ k.Scrolls c) := by
  obtain ⟨hx, hy⟩ := h
  have hedge : 0 ≤ (k.put c).csrX ∧ (k.put c).csrX ≤ 80 := by
    rcases put_cases k c with ⟨-, hput⟩ | ⟨-, hput⟩ | ⟨-, hput⟩ | ⟨-, hput⟩ | ⟨-, hput⟩ | ⟨-, hput⟩ <;> rw [hput]
    · dsimp only
      split_ifs <;> omega
    all_goals constructor <;> (try dsimp only) <;> omega
  obtain ⟨hx', hy'⟩ := wrap_cursor hedge.1 hedge.2
  refine ⟨hx', ?_⟩
  rw [hy']
  unfold Scrolls
  rcases put_cases k c with ⟨rfl, hput⟩ | ⟨rfl, hput⟩ | ⟨rfl, hput⟩ | ⟨rfl, hput⟩ | ⟨hc, hput⟩ | ⟨hc, hput⟩ <;>
    rw [hput]
  · -- A backspace
    simp +decide only [false_and, or_self, and_false, iff_false]
    split_ifs <;> omega
  · -- A tab
    simp +decide only [true_and, false_and, or_false, false_or]
    split_ifs <;> omega
  · -- A carriage return
    simp +decide only [false_and, or_self, and_false, iff_false, if_false]
    omega
  · -- A newline
    simp +decide only [true_or, and_true, if_false]
    omega
  · -- A printable character
    simp only [hc.1, hc.2.1, hc.2.2, false_and, true_and, false_or]
    split_ifs <;> omega
  · simp only [hc.1, hc.2.1, hc.2.2, false_and, or_self, and_false, iff_false]
    split_ifs <;> omega

theorem scroll_of_inside (h : k.csrY < 25) : k.scroll = k := if_neg (by
  unfold origVideoLines
  omega)

/-- A scroll by one row. -/
theorem scroll_eq (h : k.csrY = 25) :
    k.scroll = { k with
      ram := (k.ram.memmove k.textmemptr (k.cell 80) 3840).memset 0 (k.cell 1920) 500
      csrY := 24 } := by
  unfold scroll
  rw [h]
  rfl

theorem scroll_movedUp (h : k.csrY = 25) : MovedUp k k.scroll := by
  have hmem : ∀ a, k.scroll.ram.mem a = if k.cell 1920 ≤ a ∧ a < k.cell 1920 + 500 then 0
      else if k.textmemptr ≤ a ∧ a < k.textmemptr + 3840 then k.ram.mem (k.cell 80 + (a - k.textmemptr))
      else k.ram.mem a := by
    intro a
    rw [scroll_eq h]
    dsimp only
    rw [Memory.memset_mem, Memory.memmove_mem]
  have hcell : ∀ n, k.scroll.cell n = k.textmemptr + 2 * n := by
    intro n
    rw [scroll_eq h]
    rfl
  constructor
  · intro r hr
    unfold row slice
    refine List.map_congr_left fun i hi => ?_
    have hi' := List.mem_range.mp hi
    unfold origVideoCols at hi' ⊢
    rw [hmem, hcell]
    unfold cell
    rw [if_neg (by omega), if_pos (by omega)]
    congr 1
    omega
  · unfold row slice
    rw [List.eq_replicate_iff]
    refine ⟨by rw [List.length_map, List.length_range]; rfl, fun b hb => ?_⟩
    obtain ⟨i, hi, rfl⟩ := List.mem_map.mp hb
    have hi' := List.mem_range.mp hi
    unfold origVideoCols at hi' ⊢
    rw [hmem, hcell]
    unfold cell
    exact if_pos (by omega)

/-- The clearing goes on behind the screen. -/
theorem scroll_writes (h : k.csrY = 25) : k.cell 2000 ∈ k.scroll.ram.writes := by
  rw [scroll_eq h]
  refine (Memory.memset_wrote _).mpr (Or.inr ?_)
  unfold cell
  omega

/-- **The cursor stays on the screen, and a scroll moves the rows up.** -/
theorem kputchar_keeps (h : k.InBounds) : CallKeeps k c := by
  obtain ⟨hx, hlow, hhigh, -⟩ := @put_wrap_cursor k c h
  constructor
  · by_cases hscroll : (k.put c).wrap.csrY = 25
    · have heq := scroll_eq hscroll
      refine ⟨?_, ?_⟩
      · change 0 ≤ (k.put c).wrap.scroll.csrX ∧ (k.put c).wrap.scroll.csrX < 80
        rw [heq]
        exact hx
      · change 0 ≤ (k.put c).wrap.scroll.csrY ∧ (k.put c).wrap.scroll.csrY < 25
        rw [heq]
        exact ⟨by dsimp only; decide, by dsimp only; decide⟩
    · have heq := scroll_of_inside (show (k.put c).wrap.csrY < 25 by omega)
      refine ⟨?_, ?_⟩
      · change 0 ≤ (k.put c).wrap.scroll.csrX ∧ (k.put c).wrap.scroll.csrX < 80
        rw [heq]
        exact hx
      · change 0 ≤ (k.put c).wrap.scroll.csrY ∧ (k.put c).wrap.scroll.csrY < 25
        rw [heq]
        omega
  · intro hscroll
    have hmoved := scroll_movedUp (show (k.put c).wrap.csrY = 25 by omega)
    exact ⟨hmoved.moved, hmoved.blank⟩

theorem kputchar_ram (hinside : (k.put c).wrap.csrY < 25) : (k.kputchar c).ram = (k.put c).ram := by
  change (k.put c).wrap.scroll.ram = _
  rw [scroll_of_inside hinside, (wrap_ram _).1]

/-- A scroll writes the byte behind the screen. -/
theorem callWrites_of_scrolls (h : k.InBounds) (hscrolls : k.Scrolls c) :
    k.textmemptr + 4000 ∈ k.callWrites c := by
  have hforget : InBounds { k with ram := ⟨k.ram.mem, []⟩ } := ⟨h.x, h.y⟩
  obtain ⟨-, -, -, hiff⟩ := @put_wrap_cursor _ c hforget
  have hptr : (wrap (put { k with ram := ⟨k.ram.mem, []⟩ } c)).textmemptr = k.textmemptr :=
    (wrap_ram _).2.trans (put_onlyScreen hforget).ptr
  have hwrites := scroll_writes (hiff.mpr hscrolls)
  unfold cell at hwrites
  rw [hptr] at hwrites
  exact hwrites

theorem not_onScreen (k : Console) : ¬ k.OnScreen (k.textmemptr + 4000) := by
  intro h
  unfold OnScreen cell origVideoCols origVideoLines at h
  omega

/-- **A call is right exactly if it does not scroll.** -/
theorem kputchar_right_iff (h : k.InBounds) : CallRight k c ↔ ¬ k.Scrolls c := by
  have hforget : InBounds { k with ram := ⟨k.ram.mem, []⟩ } := ⟨h.x, h.y⟩
  obtain ⟨-, -, hhigh, hiff⟩ := @put_wrap_cursor k c h
  obtain ⟨-, -, hhigh', hiff'⟩ := @put_wrap_cursor _ c hforget
  constructor
  · exact fun hright hscrolls => not_onScreen k (hright.writes _ (callWrites_of_scrolls h hscrolls))
  · intro hscrolls
    have hinside : (k.put c).wrap.csrY < 25 := by
      have : (k.put c).wrap.csrY ≠ 25 := fun heq => hscrolls (hiff.mp heq)
      omega
    have hinside' : (wrap (put { k with ram := ⟨k.ram.mem, []⟩ } c)).csrY < 25 := by
      have : (wrap (put { k with ram := ⟨k.ram.mem, []⟩ } c)).csrY ≠ 25 := fun heq => hscrolls (hiff'.mp heq)
      omega
    refine ⟨kputchar_keeps h, fun a ha => ?_, fun a ha => ?_⟩
    · unfold callWrites at ha
      rw [kputchar_ram hinside'] at ha
      exact ((put_onlyScreen hforget).writes a ha).resolve_left List.not_mem_nil
    · rw [kputchar_ram hinside]
      exact (put_onlyScreen h).outside a ha

end

/-! ## Runs -/

theorem banner_printed :
    (doPrintf ⟨textAt banner fun _ => 0, fun _ => 0, noStrings⟩ 64).map Printf.out = .ok banner := by
  decide +kernel

theorem kprintf_eq {e : Call} {fuel : Nat} {out : List UInt8} (h : (doPrintf e fuel).map Printf.out = .ok out)
    (k : Console) : kprintf k e fuel = .ok (out.foldl kputchar k) := by
  unfold kprintf
  cases hrun : doPrintf e fuel with
  | error fault =>
    rw [hrun] at h
    cases h
  | ok s =>
    rw [hrun] at h
    rw [← Except.ok.inj h]
    rfl

/-- Every byte is allowed. -/
theorem allowed_all (k : Console) (cs : List UInt8) : Guarded kputchar (fun _ _ => True) k cs :=
  guarded_of_forall fun _ _ _ => trivial

theorem kputchar_inBounds (k : Console) (c : UInt8) (h : k.InBounds) (_ : True) : (kputchar k c).InBounds :=
  (kputchar_keeps h).bounds

theorem run_inBounds {k : Console} (h : k.InBounds) (cs : List UInt8) : (cs.foldl kputchar k).InBounds :=
  invariant_run kputchar_inBounds cs k h (allowed_all k cs)

theorem clearLines_writes (k : Console) (lines : Nat) :
    ∀ a ∈ (k.clearLines lines).writes, a ∈ k.ram.writes ∨ k.textmemptr ≤ a ∧ a < k.cell (lines * origVideoCols) := by
  induction lines with
  | zero => exact fun a ha => Or.inl ha
  | succ lines ih =>
    intro a ha
    unfold clearLines at ha
    rw [List.range_succ, List.foldl_append] at ha
    rcases (Memory.memset_wrote a).mp ha with hold | hnew
    · rcases ih a hold with hram | hscreen
      · exact Or.inl hram
      · right
        unfold cell origVideoCols at hscreen ⊢
        omega
    · right
      unfold cell origVideoCols at hnew ⊢
      omega

theorem InBounds.update {k : Console} (h : k.InBounds) (ptr : Nat) (att : UInt32) :
    InBounds { k with
      textmemptr := ptr
      videoAtt := att } :=
  ⟨h.x, h.y⟩

theorem cls_inBounds (k : Console) : k.cls.InBounds :=
  ⟨⟨Int.le_refl 0, show (0 : Int) < 80 by decide⟩, Int.le_refl 0, show (0 : Int) < 25 by decide⟩

/-- What `init_console` leaves. -/
theorem initConsole_inBounds (k : Console) : ∃ k', initConsole k = .ok k' ∧ k'.InBounds := by
  unfold initConsole
  dsimp only
  rw [kprintf_eq banner_printed]
  exact ⟨_, rfl, (run_inBounds ((cls_inBounds { k with textmemptr := video }).update _ _) banner).update _ _⟩

theorem calls_keep {k : Console} (h : k.InBounds) (cs : List UInt8) : Guarded kputchar CallKeeps k cs := by
  have hstep : ∀ (k : Console) (c : UInt8), k.InBounds → True → CallKeeps k c ∧ (kputchar k c).InBounds :=
    fun k c hk _ => ⟨kputchar_keeps hk, kputchar_inBounds k c hk trivial⟩
  exact guarded_of_invariant hstep cs k h (allowed_all k cs)

theorem calls_right_iff {k : Console} (h : k.InBounds) (cs : List UInt8) :
    Guarded kputchar CallRight k cs ↔ Guarded kputchar (fun k c => ¬ k.Scrolls c) k cs := by
  have hright : ∀ (k : Console) (c : UInt8), k.InBounds → CallRight k c → ¬ k.Scrolls c ∧ (kputchar k c).InBounds :=
    fun k c hk hright => ⟨(kputchar_right_iff hk).mp hright, kputchar_inBounds k c hk trivial⟩
  have hinside : ∀ (k : Console) (c : UInt8), k.InBounds → ¬ k.Scrolls c → CallRight k c ∧ (kputchar k c).InBounds :=
    fun k c hk hinside => ⟨(kputchar_right_iff hk).mpr hinside, kputchar_inBounds k c hk trivial⟩
  exact ⟨guarded_of_invariant hright cs k h, guarded_of_invariant hinside cs k h⟩

/-- **Every run of the console** keeps the cursor on the screen and scrolls the rows up; it writes nothing but the
screen exactly if no byte makes it scroll. -/
theorem kputchar_screen_iff (k : Console) (cs : List UInt8) :
    (∀ a ∈ (cls { k with ram := ⟨k.ram.mem, []⟩ }).ram.writes, k.OnScreen a) ∧
      ∃ k', initConsole k = .ok k' ∧
        Guarded kputchar CallKeeps k' cs ∧
        (Guarded kputchar CallRight k' cs ↔ Guarded kputchar (fun k c => ¬ k.Scrolls c) k' cs) := by
  constructor
  · exact fun a ha => (clearLines_writes _ _ a ha).resolve_left List.not_mem_nil
  · obtain ⟨k', hinit, hbounds⟩ := initConsole_inBounds k
    exact ⟨k', hinit, calls_keep hbounds cs, calls_right_iff hbounds cs⟩

/-- The 24th line break after the start clears memory behind the screen. -/
theorem newlines_write_outside :
    ∃ k, initConsole ⟨0, 0, 0, 0, ⟨fun _ => 0, []⟩, []⟩ = .ok k ∧
      k.textmemptr + 4000 ∈ callWrites ((List.replicate 23 (ch '\n')).foldl kputchar k) (ch '\n') ∧
      ¬ k.OnScreen (k.textmemptr + 4000) := by
  obtain ⟨k, hinit, hbounds⟩ := initConsole_inBounds ⟨0, 0, 0, 0, ⟨fun _ => 0, []⟩, []⟩
  have hlast : (initConsole ⟨0, 0, 0, 0, ⟨fun _ => 0, []⟩, []⟩).map (fun k =>
      let k' := (List.replicate 23 (ch '\n')).foldl kputchar k
      decide (k'.csrY = 24 ∧ k'.textmemptr = k.textmemptr)) = .ok true := by
    decide +kernel
  rw [hinit] at hlast
  obtain ⟨hrow, hptr⟩ := of_decide_eq_true (Except.ok.inj hlast)
  have hwrites := callWrites_of_scrolls (run_inBounds hbounds (List.replicate 23 (ch '\n'))) ⟨hrow, Or.inl rfl⟩
  rw [hptr] at hwrites
  exact ⟨k, hinit, hwrites, not_onScreen k⟩

end Console

end Desiros.Drivers

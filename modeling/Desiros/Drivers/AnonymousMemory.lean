import Desiros.Drivers.Zero
import Desiros.Library.History
import Desiros.Library.Runs

/-!
# Anonymous memory is a memory

The bytes of anonymous memory are named by their `Loc` and the offset in the page: a page of a process in a
private arena, a page of the resource in a shared one. `Coherent` says which physical page is the home of a
location, and that it holds what was written last; locations without a home were never written, and only
they may be shown `zero_page`. Faults and accesses keep it, as long as no write meets a page that shows
`zero_page` at its location (`WriteGood`): nothing ever replaces that page.
-/

namespace Desiros.Drivers

open Desiros.Library Desiros.Mem

/-- The page of anonymous memory behind an address. -/
inductive Loc
  | privatePage (process : Nat) (page : UInt32)
  | sharedPage (resource : Nat) (pageId : UInt32)
deriving DecidableEq

def arenaLoc (arena : UvmmArena) (process : Nat) (uaddr : UInt32) : Loc :=
  if isShared arena then .sharedPage arena.mappedResource.addr (requiredPageId arena uaddr)
  else .privatePage process (pageAlignInf uaddr)

/-- The arena that is asked for an address of a process. -/
def ZeroSystem.arenaAt (s : ZeroSystem) (process : Nat) (uaddr : UInt32) : Option UvmmArena :=
  ((s.addressSpaces process).map UvmmAs.listArena).bind fun l => findFirstIntersectingArena l uaddr 1

def ZeroSystem.locOf (s : ZeroSystem) (process : Nat) (uaddr : UInt32) : Loc :=
  match s.arenaAt process uaddr with
  | some arena => arenaLoc arena process uaddr
  | none => .privatePage process (pageAlignInf uaddr)

/-- The history of the completed accesses, by the location and offset of their bytes. -/
def byteHistory (loc : Nat → UInt32 → Loc) : MemHistory Event (Loc × UInt32) UInt8 where
  cell := fun e => (loc e.process e.uaddr, vaddrPgOffset e.uaddr)
  isWrite := Event.isWrite
  value := Event.value

/-- The bytes of a page have one location. -/
def PageWise (loc : Nat → UInt32 → Loc) : Prop :=
  ∀ p a b, pageAlignInf a = pageAlignInf b → loc p a = loc p b

/-- The physical memory holds the history: `home` are the physical pages of the locations. -/
structure Coherent (loc : Nat → UInt32 → Loc) (w : ZeroWorld) (events : List Event)
    (home : Loc → Option UInt32) : Prop where
  free : w.physmem.FreeOk
  zero : ∀ i, w.mem w.zeroPage i = 0
  zero_not_free : w.zeroPage ∉ w.physmem.freePpage
  injective : ∀ l l' f, home l = some f → home l' = some f → l = l'
  page : ∀ l f, home l = some f → f ≠ 0 ∧ f ≠ w.zeroPage ∧ f ∉ w.physmem.freePpage
  permits : ∀ p a, (w.entry p a).present → (w.entry p a).user ∧ (w.entry p a).writable
  mapped : ∀ p a, (w.entry p a).present → home (loc p a) = some (w.entry p a).paddr ∨
    (w.entry p a).paddr = w.zeroPage ∧ home (loc p a) = none
  listed : ∀ r id, lookupAnonymousPhyspage w r id = (home (.sharedPage r id)).getD 0
  own : ∀ p a f, home (.privatePage p (pageAlignInf a)) = some f → (w.entry p a).present
  content : ∀ l f, home l = some f → ∀ i, w.mem f i = lastValue (byteHistory loc) 0 (l, i) events
  untouched : ∀ l, home l = none → ∀ i, ¬ Written (byteHistory loc) (l, i) events

/-! ## The world after a fault -/

/-- The page of `uaddr` in the current process shows the physical page `f`. -/
def ZeroWorld.showPage (w : ZeroWorld) (uaddr f : UInt32) (m : Physmem) : ZeroWorld :=
  { w with
    physmem := m
    pageTables := Function.update w.pageTables w.current
      (Function.update (w.pageTables w.current) (pageAlignInf uaddr) ⟨f, true, true, true⟩) }

theorem pagingMap_eq (w : ZeroWorld) (uaddr f : UInt32) :
    w.pagingMap (pageAlignInf uaddr) f true =
      (0, w.showPage uaddr f (physmemRefPhyspageAt w.physmem f).2) := by
  simp only [ZeroWorld.pagingMap, Mem.pagingMap, pageAlignInf_pageAlignInf]
  rfl

theorem zeroMapPage_eq (w : ZeroWorld) (uaddr f : UInt32) :
    zeroMapPage uaddr f w = (0, w.showPage uaddr f (physmemRefPhyspageAt w.physmem f).2) := by
  simp only [zeroMapPage, pagingMap_eq]
  rfl

theorem entry_showPage (w : ZeroWorld) (uaddr f : UInt32) (m : Physmem) (p : Nat) (a : UInt32) :
    (w.showPage uaddr f m).entry p a =
      if p = w.current ∧ pageAlignInf a = pageAlignInf uaddr then ⟨f, true, true, true⟩
      else w.entry p a := by
  by_cases hp : p = w.current
  · subst hp
    by_cases ha : pageAlignInf a = pageAlignInf uaddr
    · rw [if_pos ⟨rfl, ha⟩]
      simp only [ZeroWorld.entry, ZeroWorld.showPage, Function.update_self, ha]
    · rw [if_neg fun h => ha h.2]
      simp only [ZeroWorld.entry, ZeroWorld.showPage, Function.update_self, Function.update_of_ne ha]
  · rw [if_neg fun h => hp h.1]
    simp only [ZeroWorld.entry, ZeroWorld.showPage, Function.update_of_ne hp]

/-- The pages listed for the resources after a new page was mapped. -/
def listedAfter (w : ZeroWorld) (arena : UvmmArena) (uaddr f : UInt32) : Nat → List ZeroMappedPage :=
  if isShared arena ∧ w.cacheAllocOk then
    Function.update w.listMappedPages arena.mappedResource.addr
      (⟨requiredPageId arena uaddr, f⟩ :: w.listMappedPages arena.mappedResource.addr)
  else w.listMappedPages

/-- Either there is no free page, or a free page is taken, mapped, filled with zeros and listed. -/
theorem zeroNewPage_cases {w : ZeroWorld} (h : w.physmem.FreeOk) (arena : UvmmArena) (uaddr : UInt32) :
    ∃ m : Physmem, m.FreeOk ∧ (∀ g ∈ m.freePpage, g ∈ w.physmem.freePpage) ∧
      (((zeroNewPage arena uaddr w).1 ≠ 0 ∧ (zeroNewPage arena uaddr w).2 = { w with physmem := m }) ∨
      ∃ f ∈ w.physmem.freePpage, f ≠ 0 ∧ f ∉ m.freePpage ∧
        zeroNewPage arena uaddr w = (0, { w.showPage uaddr f m with
          mem := Function.update w.mem f fun _ => 0
          listMappedPages := listedAfter w arena uaddr f })) := by
  rcases physmemRefPhyspageNew_cases h with ⟨_, heq⟩ | ⟨f, rest, hcons, hf, hret, hrest, hcnt, hok1⟩
  · refine ⟨w.physmem, h, fun _ hg => hg, .inl ?_⟩
    simp only [zeroNewPage, heq, if_true]
    exact ⟨by decide, trivial⟩
  obtain ⟨m1, hm1⟩ : ∃ m1, m1 = (physmemRefPhyspageNew w.physmem).2 := ⟨_, rfl⟩
  rw [← hm1] at hrest hcnt hok1
  have hf1 : f ∉ m1.freePpage := hrest ▸ hf
  have hcnt1 : m1.refCnt f = 1 := by rw [hcnt, Function.update_self]
  have hsub1 : ∀ g ∈ m1.freePpage, g ∈ w.physmem.freePpage := by
    intro g hg
    exact hcons ▸ List.mem_cons_of_mem _ (hrest ▸ hg)
  by_cases hf0 : f = 0
  · refine ⟨m1, hok1, hsub1, .inl ?_⟩
    simp only [zeroNewPage, hret, if_pos hf0, ← hm1]
    exact ⟨by decide, trivial⟩
  -- `paging_map` takes a reference, and so does the list; the one of the allocation is given back
  obtain ⟨m2, hm2⟩ : ∃ m2, m2 = (physmemRefPhyspageAt m1 f).2 := ⟨_, rfl⟩
  have hfree2 : m2.freePpage = m1.freePpage := hm2 ▸ physmemRefPhyspageAt_freePpage hf1
  have hcnt2 : m2.refCnt f ≠ 0 := by
    rw [hm2, physmemRefPhyspageAt_refCnt]
    split
    · rw [Function.update_self, hcnt1]
      decide
    · rw [hcnt1]
      decide
  obtain ⟨m3, hm3⟩ : ∃ m3, m3 = (physmemUnrefPhyspage (if isShared arena ∧ w.cacheAllocOk then
      (physmemRefPhyspageAt m2 f).2 else m2) f).2 := ⟨_, rfl⟩
  have hok3 : m3.FreeOk ∧ m3.freePpage = m1.freePpage := by
    rw [hm3]
    split
    · have h3 := (hm2 ▸ hok1.refAt hf1 : m2.FreeOk).unref_refAt (hfree2 ▸ hf1) hcnt2
      exact ⟨h3.1, h3.2.trans hfree2⟩
    · rw [hm2]
      exact hok1.unref_refAt hf1 (by rw [hcnt1]; decide)
  refine ⟨m3, hok3.1, fun g hg => hsub1 g (hok3.2 ▸ hg), .inr ⟨f, hcons ▸ List.mem_cons_self, hf0,
    hok3.2 ▸ hf1, ?_⟩⟩
  simp only [zeroNewPage, hret, if_neg hf0, ← hm1, pagingMap_eq, ← hm2, ne_eq, not_true, if_false]
  rw [hm3, listedAfter]
  cases hs : isShared arena <;> cases hc : w.cacheAllocOk <;>
    simp [insertAnonymousPhyspage, ZeroWorld.memsetPage, ZeroWorld.unrefPhyspage, ZeroWorld.showPage, hc]

section Fault

variable {loc : Nat → UInt32 → Loc} {w : ZeroWorld} {events : List Event}
  {home : Loc → Option UInt32} {uaddr : UInt32}

/-- Showing the home of the location, or `zero_page` when it has none. -/
theorem Coherent.showPage (h : Coherent loc w events home) (hloc : PageWise loc) {f : UInt32}
    (hf : f ∉ w.physmem.freePpage)
    (hhome : home (loc w.current uaddr) = some f ∨ f = w.zeroPage ∧ home (loc w.current uaddr) = none) :
    Coherent loc (w.showPage uaddr f (physmemRefPhyspageAt w.physmem f).2) events home := by
  have hfree := physmemRefPhyspageAt_freePpage hf
  refine ⟨h.free.refAt hf, h.zero, ?_, h.injective, ?_, ?_, ?_, h.listed, ?_, h.content, h.untouched⟩
  · show w.zeroPage ∉ (physmemRefPhyspageAt w.physmem f).2.freePpage
    rw [hfree]
    exact h.zero_not_free
  · show ∀ l g, home l = some g →
      g ≠ 0 ∧ g ≠ w.zeroPage ∧ g ∉ (physmemRefPhyspageAt w.physmem f).2.freePpage
    rw [hfree]
    exact h.page
  · intro p a hpres
    rw [entry_showPage] at hpres ⊢
    by_cases hsame : p = w.current ∧ pageAlignInf a = pageAlignInf uaddr
    · rw [if_pos hsame]
      exact ⟨rfl, rfl⟩
    · rw [if_neg hsame] at hpres ⊢
      exact h.permits p a hpres
  · intro p a hpres
    rw [entry_showPage] at hpres ⊢
    by_cases hsame : p = w.current ∧ pageAlignInf a = pageAlignInf uaddr
    · rw [if_pos hsame, hsame.1, hloc _ _ _ hsame.2]
      exact hhome
    · rw [if_neg hsame] at hpres ⊢
      exact h.mapped p a hpres
  · intro p a g hg
    rw [entry_showPage]
    split
    · rfl
    · exact h.own p a g hg

/-- A page taken off the free list becomes the home of a location that is not shown anywhere. -/
theorem Coherent.newHome (h : Coherent loc w events home) (hloc : PageWise loc) {f : UInt32} {m : Physmem}
    (lists : Nat → List ZeroMappedPage) (hm : m.FreeOk) (hfree : ∀ g ∈ m.freePpage, g ∈ w.physmem.freePpage)
    (hf : f ∈ w.physmem.freePpage) (hf0 : f ≠ 0) (hfm : f ∉ m.freePpage)
    (hnone : home (loc w.current uaddr) = none)
    (hunshown : ∀ p a, (w.entry p a).present → loc p a ≠ loc w.current uaddr)
    (hlists : ∀ r id, lookupAnonymousPhyspage { w with listMappedPages := lists } r id =
      if loc w.current uaddr = .sharedPage r id then f else lookupAnonymousPhyspage w r id)
    (hown : ∀ p a, loc w.current uaddr = .privatePage p (pageAlignInf a) →
      p = w.current ∧ pageAlignInf a = pageAlignInf uaddr) :
    Coherent loc { w.showPage uaddr f m with
        mem := Function.update w.mem f fun _ => 0, listMappedPages := lists } events
      (Function.update home (loc w.current uaddr) (some f)) := by
  obtain ⟨l, hl⟩ : ∃ l, l = loc w.current uaddr := ⟨_, rfl⟩
  have hfresh : ∀ l', home l' ≠ some f := fun l' hl' => (h.page l' f hl').2.2 hf
  have hfz : f ≠ w.zeroPage := fun he => h.zero_not_free (he ▸ hf)
  have hentry : ∀ p a, ZeroWorld.entry { w.showPage uaddr f m with
      mem := Function.update w.mem f fun _ => 0, listMappedPages := lists } p a =
      (w.showPage uaddr f m).entry p a := fun _ _ => rfl
  rw [← hl] at hnone hunshown hlists hown ⊢
  refine ⟨hm, ?_, ?_, ?_, ?_, ?_, ?_, ?_, ?_, ?_, ?_⟩
  · intro i
    show Function.update w.mem f (fun _ => 0) w.zeroPage i = 0
    rw [Function.update_of_ne hfz.symm]
    exact h.zero i
  · exact fun hz => h.zero_not_free (hfree _ hz)
  · intro l1 l2 g h1 h2
    by_cases he1 : l1 = l <;> by_cases he2 : l2 = l
    · rw [he1, he2]
    · rw [he1, Function.update_self] at h1
      rw [Function.update_of_ne he2] at h2
      cases h1
      exact absurd h2 (hfresh l2)
    · rw [he2, Function.update_self] at h2
      rw [Function.update_of_ne he1] at h1
      cases h2
      exact absurd h1 (hfresh l1)
    · rw [Function.update_of_ne he1] at h1
      rw [Function.update_of_ne he2] at h2
      exact h.injective l1 l2 g h1 h2
  · intro l' g hg
    by_cases he : l' = l
    · rw [he, Function.update_self] at hg
      cases hg
      exact ⟨hf0, hfz, hfm⟩
    · rw [Function.update_of_ne he] at hg
      obtain ⟨h0, hz, hfr⟩ := h.page l' g hg
      exact ⟨h0, hz, fun hg' => hfr (hfree g hg')⟩
  · intro p a hpres
    rw [hentry, entry_showPage] at hpres ⊢
    by_cases hsame : p = w.current ∧ pageAlignInf a = pageAlignInf uaddr
    · rw [if_pos hsame]
      exact ⟨rfl, rfl⟩
    · rw [if_neg hsame] at hpres ⊢
      exact h.permits p a hpres
  · intro p a hpres
    rw [hentry, entry_showPage] at hpres ⊢
    by_cases hsame : p = w.current ∧ pageAlignInf a = pageAlignInf uaddr
    · rw [if_pos hsame, hsame.1, hloc _ _ _ hsame.2, ← hl, Function.update_self]
      exact .inl rfl
    · rw [if_neg hsame] at hpres ⊢
      rw [Function.update_of_ne (hunshown p a hpres)]
      exact h.mapped p a hpres
  · intro r id
    refine (hlists r id).trans ?_
    by_cases he : l = .sharedPage r id
    · rw [if_pos he, ← he, Function.update_self]
      rfl
    · rw [if_neg he, Function.update_of_ne (Ne.symm he)]
      exact h.listed r id
  · intro p a g hg
    rw [hentry, entry_showPage]
    by_cases he : Loc.privatePage p (pageAlignInf a) = l
    · rw [if_pos (hown p a he.symm)]
    · rw [Function.update_of_ne he] at hg
      split
      · rfl
      · exact h.own p a g hg
  · intro l' g hg i
    show Function.update w.mem f (fun _ => 0) g i = _
    by_cases he : l' = l
    · rw [he, Function.update_self] at hg
      cases hg
      rw [Function.update_self, he, lastValue_of_not_written (h.untouched l hnone i)]
    · rw [Function.update_of_ne he] at hg
      have hne : g ≠ f := fun hgf => hfresh l' (hgf ▸ hg)
      rw [Function.update_of_ne hne]
      exact h.content l' g hg i
  · intro l' hl' i
    by_cases he : l' = l
    · rw [he, Function.update_self] at hl'
      cases hl'
    · rw [Function.update_of_ne he] at hl'
      exact h.untouched l' hl' i

theorem lookup_listedAfter (w : ZeroWorld) (arena : UvmmArena) (uaddr f : UInt32)
    (hok : isShared arena → w.cacheAllocOk) (p : Nat) (r : Nat) (id : UInt32) :
    lookupAnonymousPhyspage { w with listMappedPages := listedAfter w arena uaddr f } r id =
      if arenaLoc arena p uaddr = .sharedPage r id then f else lookupAnonymousPhyspage w r id := by
  by_cases hs : isShared arena = true
  swap
  · rw [arenaLoc, if_neg hs, if_neg (by simp), listedAfter, if_neg fun h => hs h.1]
  rw [arenaLoc, if_pos hs, listedAfter, if_pos ⟨hs, hok hs⟩]
  by_cases hr : r = arena.mappedResource.addr
  · subst hr
    by_cases hid : requiredPageId arena uaddr = id
    · rw [if_pos (by rw [hid])]
      simp [lookupAnonymousPhyspage, hid]
    · rw [if_neg (by simp [hid])]
      simp [lookupAnonymousPhyspage, hid]
  · rw [if_neg fun he => hr (by injection he with h1 _; exact h1.symm)]
    simp only [lookupAnonymousPhyspage, Function.update_of_ne hr]

/-- The location of a page that no entry shows and no list holds has no home. -/
theorem Coherent.home_none (h : Coherent loc w events home) (arena : UvmmArena)
    (hl : loc w.current uaddr = arenaLoc arena w.current uaddr)
    (habsent : ¬ (w.entry w.current uaddr).present) (hlookup : sharedPage arena uaddr w = 0) :
    home (loc w.current uaddr) = none := by
  rw [Option.eq_none_iff_forall_ne_some]
  intro f hf
  rw [hl, arenaLoc] at hf
  split at hf
  · rename_i hs
    have hlist := h.listed arena.mappedResource.addr (requiredPageId arena uaddr)
    rw [sharedPage, if_pos hs] at hlookup
    rw [hf, hlookup] at hlist
    exact (h.page _ f hf).1 hlist.symm
  · exact habsent (h.own _ _ f hf)

/-- A write fault takes a page and cannot list it. -/
def InsertionFails (arena : UvmmArena) (uaddr : UInt32) (w : ZeroWorld) : Prop :=
  isShared arena ∧ sharedPage arena uaddr w = 0 ∧ w.physmem.freePpage ≠ [] ∧ w.cacheAllocOk = false

/-- **A page fault** keeps the memory coherent; once resolved, the entry permits the access, and a write
does not meet `zero_page`. -/
theorem Coherent.zeroNoPage (h : Coherent loc w events home) (hloc : PageWise loc) (arena : UvmmArena)
    (isWrite : Bool) (hl : loc w.current uaddr = arenaLoc arena w.current uaddr)
    (habsent : ¬ (w.entry w.current uaddr).present)
    (hgood : isWrite → (∀ p a, (w.entry p a).present → loc p a = loc w.current uaddr →
      (w.entry p a).paddr ≠ w.zeroPage) ∧ ¬ InsertionFails arena uaddr w) :
    ∃ home', Coherent loc (zeroNoPage arena uaddr isWrite w).2 events home' ∧
      ((zeroNoPage arena uaddr isWrite w).1 = 0 → ∃ f,
        (zeroNoPage arena uaddr isWrite w).2.entry w.current uaddr = ⟨f, true, true, true⟩ ∧
        (isWrite → f ≠ (zeroNoPage arena uaddr isWrite w).2.zeroPage)) := by
  by_cases hlookup : sharedPage arena uaddr w = 0
  swap
  · -- the page is listed
    have hs : isShared arena = true := by
      by_contra hs
      exact hlookup (if_neg hs)
    obtain ⟨f, hf⟩ : ∃ f, home (loc w.current uaddr) = some f := by
      rw [← Option.ne_none_iff_exists']
      intro hnone
      apply hlookup
      rw [hl, arenaLoc, if_pos hs] at hnone
      rw [sharedPage, if_pos hs, h.listed, hnone]
      rfl
    have hfound : sharedPage arena uaddr w = f := by
      rw [hl, arenaLoc, if_pos hs] at hf
      rw [sharedPage, if_pos hs, h.listed, hf]
      rfl
    obtain ⟨_, hfz, hff⟩ := h.page _ f hf
    refine ⟨home, ?_⟩
    rw [Drivers.zeroNoPage, if_pos hlookup, hfound, zeroMapPage_eq]
    refine ⟨h.showPage hloc hff (.inl hf), fun _ => ⟨f, ?_, fun _ => hfz⟩⟩
    rw [entry_showPage, if_pos ⟨rfl, rfl⟩]
  have hnone := h.home_none arena hl habsent hlookup
  rw [Drivers.zeroNoPage, if_neg (not_not.mpr hlookup)]
  cases isWrite with
  | false =>
    refine ⟨home, ?_⟩
    rw [if_neg Bool.false_ne_true, zeroMapPage_eq]
    refine ⟨h.showPage hloc h.zero_not_free (.inr ⟨rfl, hnone⟩), fun _ => ⟨w.zeroPage, ?_, by simp⟩⟩
    rw [entry_showPage, if_pos ⟨rfl, rfl⟩]
  | true =>
    obtain ⟨hunshown, hinsert⟩ := hgood rfl
    rw [if_pos rfl]
    obtain ⟨m, hm, hsub, ⟨hret, hw⟩ | ⟨f, hf, hf0, hfm, heq⟩⟩ := zeroNewPage_cases h.free arena uaddr
    · refine ⟨home, ?_, fun h0 => absurd h0 hret⟩
      rw [hw]
      exact ⟨hm, h.zero, fun hz => h.zero_not_free (hsub _ hz), h.injective,
        fun l f hf => ⟨(h.page l f hf).1, (h.page l f hf).2.1, fun hg => (h.page l f hf).2.2 (hsub f hg)⟩,
        h.permits, h.mapped, h.listed, h.own, h.content, h.untouched⟩
    · have hok : isShared arena → w.cacheAllocOk := by
        intro hs
        by_contra hc
        exact hinsert ⟨hs, hlookup, List.ne_nil_of_mem hf, Bool.eq_false_iff.mpr hc⟩
      have hcoherent := h.newHome hloc (listedAfter w arena uaddr f) hm hsub hf hf0 hfm hnone
        (fun p a hpres he => ?_) (fun r id => ?_) (fun p a he => ?_)
      · refine ⟨Function.update home (loc w.current uaddr) (some f), ?_, fun _ => ⟨f, ?_, fun _ => ?_⟩⟩
        · rw [heq]
          exact hcoherent
        · rw [heq]
          show (w.showPage uaddr f m).entry w.current uaddr = _
          rw [entry_showPage, if_pos ⟨rfl, rfl⟩]
        · rw [heq]
          exact fun he => h.zero_not_free (he ▸ hf)
      · rcases h.mapped p a hpres with hhome | ⟨hzero, _⟩
        · rw [he, hnone] at hhome
          cases hhome
        · exact hunshown p a hpres he hzero
      · rw [hl]
        exact lookup_listedAfter w arena uaddr f hok w.current r id
      · rw [hl, arenaLoc] at he
        split at he
        · cases he
        · injection he with h1 h2
          exact ⟨h1.symm, h2.symm⟩

/-- **The access itself**: a read returns what was written last, and a write that does not meet
`zero_page` is what is written last from then on. -/
theorem Coherent.perform (h : Coherent loc w events home) (x : Access)
    (hpres : (w.entry x.process x.uaddr).present)
    (hzero : x.isWrite → (w.entry x.process x.uaddr).paddr ≠ w.zeroPage) :
    let r := x.perform (w.entry x.process x.uaddr).paddr w
    Coherent loc r.2 (⟨x.process, x.uaddr, x.isWrite, r.1⟩ :: events) home ∧
      (x.isWrite = false → r.1 =
        lastValue (byteHistory loc) 0 (loc x.process x.uaddr, vaddrPgOffset x.uaddr) events) := by
  intro r
  obtain ⟨f, hf⟩ : ∃ f, f = (w.entry x.process x.uaddr).paddr := ⟨_, rfl⟩
  cases hw : x.written with
  | none =>
    have hread : x.isWrite = false := by rw [Access.isWrite, hw]; rfl
    have hr : r = (w.mem f (vaddrPgOffset x.uaddr), w) := by
      simp only [r, Access.perform, hw, hf]
    have hcell : (byteHistory loc).isWrite ⟨x.process, x.uaddr, x.isWrite, r.1⟩ = false := hread
    rw [hr] at hcell ⊢
    refine ⟨⟨h.free, h.zero, h.zero_not_free, h.injective, h.page, h.permits, h.mapped, h.listed, h.own,
      fun l g hg i => ?_, fun l hl i => ?_⟩, fun _ => ?_⟩
    · rw [lastValue_cons_of_read _ hcell]
      exact h.content l g hg i
    · rw [not_written_cons]
      exact ⟨fun h' => Bool.false_ne_true (hcell.symm.trans h'.1), h.untouched l hl i⟩
    · rcases h.mapped _ _ hpres with hhome | ⟨hz, hnone⟩
      · exact h.content _ _ (hf ▸ hhome) _
      · show w.mem f _ = _
        rw [hf, hz, h.zero, lastValue_of_not_written (h.untouched _ hnone _)]
  | some v =>
    have hwrite : x.isWrite = true := by rw [Access.isWrite, hw]; rfl
    have hfz := hzero hwrite
    rw [← hf] at hfz
    have hhome : home (loc x.process x.uaddr) = some f := by
      rcases h.mapped _ _ hpres with hhome | ⟨hz, _⟩
      · exact hf ▸ hhome
      · exact absurd (hf.trans hz) hfz
    obtain ⟨e, he⟩ : ∃ e : Event, e = ⟨x.process, x.uaddr, x.isWrite, v⟩ := ⟨_, rfl⟩
    have hcell : (byteHistory loc).cell e = (loc x.process x.uaddr, vaddrPgOffset x.uaddr) := by rw [he]; rfl
    have hevent : (byteHistory loc).isWrite e = true := by rw [he]; exact hwrite
    have hvalue : (byteHistory loc).value e = v := by rw [he]; rfl
    have hr : r = (v, { w with
        mem := Function.update w.mem f (Function.update (w.mem f) (vaddrPgOffset x.uaddr) v) }) := by
      simp only [r, Access.perform, hw, hf]
    rw [hr, ← he]
    refine ⟨⟨h.free, fun i => ?_, h.zero_not_free, h.injective, h.page, h.permits, h.mapped, h.listed,
      h.own, fun l g hg i => ?_, fun l hl i => ?_⟩, fun h' => ?_⟩
    · show Function.update w.mem f _ w.zeroPage i = 0
      rw [Function.update_of_ne hfz.symm]
      exact h.zero i
    · show Function.update w.mem f _ g i = _
      by_cases hgf : g = f
      · subst hgf
        obtain rfl := h.injective _ _ _ hg hhome
        rw [Function.update_self]
        by_cases hi : i = vaddrPgOffset x.uaddr
        · rw [hi, Function.update_self, ← hcell, lastValue_cons_self _ hevent, hvalue]
        · rw [Function.update_of_ne hi, lastValue_cons_of_ne _ (by rw [hcell]; simp [Ne.symm hi])]
          exact h.content _ _ hg i
      · have hl : l ≠ loc x.process x.uaddr := by
          rintro rfl
          rw [hhome] at hg
          exact hgf (Option.some.inj hg).symm
        rw [Function.update_of_ne hgf, lastValue_cons_of_ne _ (by rw [hcell]; simp [Ne.symm hl])]
        exact h.content l g hg i
    · have hne : l ≠ loc x.process x.uaddr := by
        rintro rfl
        rw [hhome] at hl
        cases hl
      rw [not_written_cons]
      refine ⟨fun h' => ?_, h.untouched l hl i⟩
      rw [hcell, Prod.mk.injEq] at h'
      exact hne h'.2.1.symm
    · rw [hwrite] at h'
      cases h'

end Fault

/-! ## Runs -/

/-- The world in which the fault of an access is handled. -/
def ZeroSystem.faultWorld (s : ZeroSystem) (x : Access) : ZeroWorld :=
  { s.world with current := x.process, cacheAllocOk := x.cacheAllocOk }

theorem locOf_congr {s s' : ZeroSystem}
    (h : ∀ p, (s'.addressSpaces p).map UvmmAs.listArena = (s.addressSpaces p).map UvmmAs.listArena) :
    s'.locOf = s.locOf := by
  funext p a
  simp only [ZeroSystem.locOf, ZeroSystem.arenaAt, h]

/-- A fault asks the arena for the page; nothing changes if there is none. -/
theorem fault_cases (E : UvmmEnv ZeroWorld) (s : ZeroSystem) (x : Access) :
    (s.afterFault x (s.fault E x)).locOf = s.locOf ∧
    (((s.fault E x).retval ≠ 0 ∧ (s.afterFault x (s.fault E x)).world = s.faultWorld x) ∨
      ∃ arena, s.arenaAt x.process x.uaddr = some arena ∧
        (s.afterFault x (s.fault E x)).world = (zeroNoPage arena x.uaddr x.isWrite (s.faultWorld x)).2 ∧
        ((s.fault E x).retval = 0 → (zeroNoPage arena x.uaddr x.isWrite (s.faultWorld x)).1 = 0)) := by
  obtain ⟨r, hr⟩ : ∃ r, r = s.fault E x := ⟨_, rfl⟩
  have hloc : (r.state.current.join.map UvmmAs.listArena =
      (s.addressSpaces x.process).map UvmmAs.listArena) → (s.afterFault x r).locOf = s.locOf := by
    intro h
    apply locOf_congr
    intro p
    by_cases hp : p = x.process
    · subst hp
      simp only [ZeroSystem.afterFault, Function.update_self, h]
    · simp only [ZeroSystem.afterFault, Function.update_of_ne hp]
  have hseven : (-7 : Int) ≠ 0 := by decide
  rw [← hr]
  rw [ZeroSystem.fault, uvmmLazyLoading] at hr
  cases has : s.addressSpaces x.process with
  | none =>
    simp only [has] at hr
    rw [hr] at hloc ⊢
    exact ⟨hloc (by rw [has]; rfl), .inl ⟨hseven, rfl⟩⟩
  | some as =>
    simp only [has] at hr
    have harena : s.arenaAt x.process x.uaddr = findFirstIntersectingArena as.listArena x.uaddr 1 := by
      rw [ZeroSystem.arenaAt, has]
      rfl
    cases hfind : findFirstIntersectingArena as.listArena x.uaddr 1 with
    | none =>
      simp only [hfind] at hr
      rw [hr] at hloc ⊢
      exact ⟨hloc (by rw [has]; rfl), .inl ⟨hseven, rfl⟩⟩
    | some arena =>
      simp only [hfind] at hr
      obtain ⟨z, hz⟩ : ∃ z, z = zeroNoPage arena x.uaddr x.isWrite (s.faultWorld x) := ⟨_, rfl⟩
      have hcall : callNoPage (zeroEnv E) arena x.uaddr x.isWrite
          { s.world with current := x.process, cacheAllocOk := x.cacheAllocOk } = z := hz.symm
      rw [hcall] at hr
      have hlists : r.state.current.join.map UvmmAs.listArena =
          (s.addressSpaces x.process).map UvmmAs.listArena := by
        rw [hr, has]
        split <;> simp only [Option.join_some, Option.map_some]
      refine ⟨hloc hlists, .inr ⟨arena, harena.trans hfind, ?_, fun h0 => ?_⟩⟩
      · rw [← hz, ZeroSystem.afterFault, hr]
        split <;> rfl
      · rw [← hz]
        by_contra hne
        rw [hr, if_pos hne] at h0
        exact hseven h0

/-- When an access keeps the memory coherent: it is no write, or no page that shows `zero_page` stands for
the location written and a page taken for a shared location can be listed. -/
def WriteGood (s : ZeroSystem) (x : Access) : Prop :=
  x.isWrite →
    (∀ p a, (s.world.entry p a).present → s.locOf p a = s.locOf x.process x.uaddr →
      (s.world.entry p a).paddr ≠ s.world.zeroPage) ∧
    ∀ arena ∈ s.arenaAt x.process x.uaddr, ¬ (s.world.entry x.process x.uaddr).present →
      ¬ InsertionFails arena x.uaddr (s.faultWorld x)

def OpGood (t : ZeroRun) : ZeroOp → Prop
  | .access x => WriteGood t.system x
  | .takePage => True

/-- The invariant of a run. -/
structure RunCoherent (loc : Nat → UInt32 → Loc) (t : ZeroRun) : Prop where
  locOf : t.system.locOf = loc
  reads : ReadsLast (byteHistory loc) 0 t.events
  coherent : ∃ home, Coherent loc t.system.world t.events home

section Run

variable {loc : Nat → UInt32 → Loc} {s : ZeroSystem} {events : List Event} {home : Loc → Option UInt32}

theorem allows_iff {e : Pte} {isWrite : Bool} :
    Pte.allows e isWrite = true ↔ e.present ∧ e.user ∧ (isWrite → e.writable) := by
  cases isWrite <;> simp [Pte.allows, and_assoc]

/-- An access that is permitted at once. -/
theorem userAccess_of_allows (E : UvmmEnv ZeroWorld) (s : ZeroSystem) (x : Access)
    (h : Pte.allows (s.world.entry x.process x.uaddr) x.isWrite = true) :
    userAccess E s x = (some (x.perform (s.world.entry x.process x.uaddr).paddr s.world).1,
      { s with world := (x.perform (s.world.entry x.process x.uaddr).paddr s.world).2 }) := by
  rw [userAccess, if_pos h]

/-- One access. -/
theorem RunCoherent.access {t : ZeroRun} (h : RunCoherent loc t) (hloc : PageWise loc)
    (hlocs : ∀ p a arena, t.system.arenaAt p a = some arena → loc p a = arenaLoc arena p a)
    (E : UvmmEnv ZeroWorld) (x : Access) (hgood : WriteGood t.system x) :
    RunCoherent loc (zeroStep E t (.access x)) := by
  obtain ⟨s, events⟩ := t
  obtain ⟨hs, hreads, home, hcoh⟩ := h
  have hfinish : ∀ (s' : ZeroSystem) (home' : Loc → Option UInt32), s'.locOf = loc →
      Coherent loc s'.world events home' → (s'.world.entry x.process x.uaddr).present →
      (x.isWrite → (s'.world.entry x.process x.uaddr).paddr ≠ s'.world.zeroPage) →
      RunCoherent loc
        { system := { s' with world := (x.perform (s'.world.entry x.process x.uaddr).paddr s'.world).2 }
          events := ⟨x.process, x.uaddr, x.isWrite,
            (x.perform (s'.world.entry x.process x.uaddr).paddr s'.world).1⟩ :: events } := by
    intro s' home' hs' hcoh' hpres hzero
    obtain ⟨h1, h2⟩ := hcoh'.perform x hpres hzero
    exact ⟨hs', ⟨h2, hreads⟩, home', h1⟩
  by_cases hallow : Pte.allows (s.world.entry x.process x.uaddr) x.isWrite = true
  · have hpres := (allows_iff.mp hallow).1
    simp only [zeroStep, userAccess_of_allows E s x hallow]
    exact hfinish s home hs hcoh hpres fun hw => (hgood hw).1 _ _ hpres rfl
  -- the page is absent: present pages permit every access
  have habsent : ¬ (s.world.entry x.process x.uaddr).present := by
    intro hpres
    obtain ⟨hu, hw⟩ := hcoh.permits _ _ hpres
    exact hallow (allows_iff.mpr ⟨hpres, hu, fun _ => hw⟩)
  have hcohf : Coherent loc (s.faultWorld x) events home :=
    ⟨hcoh.free, hcoh.zero, hcoh.zero_not_free, hcoh.injective, hcoh.page, hcoh.permits, hcoh.mapped,
      hcoh.listed, hcoh.own, hcoh.content, hcoh.untouched⟩
  obtain ⟨s', hs'⟩ : ∃ s', s' = s.afterFault x (s.fault E x) := ⟨_, rfl⟩
  obtain ⟨hlocf, hcases⟩ := fault_cases E s x
  rw [← hs'] at hlocf hcases
  have hstep : (∃ home', Coherent loc s'.world events home') ∧ ((s.fault E x).retval = 0 →
      ∃ home', Coherent loc s'.world events home' ∧ (s'.world.entry x.process x.uaddr).present ∧
        (x.isWrite → (s'.world.entry x.process x.uaddr).paddr ≠ s'.world.zeroPage)) := by
    rcases hcases with ⟨hret, hw⟩ | ⟨arena, harena, hw, hret⟩
    · exact ⟨⟨home, hw ▸ hcohf⟩, fun h0 => absurd h0 hret⟩
    · obtain ⟨home', hcoh', hres⟩ := hcohf.zeroNoPage hloc arena x.isWrite
        (hlocs _ _ _ harena) habsent fun hwrite => by
          obtain ⟨h1, h2⟩ := hgood hwrite
          refine ⟨fun p a hpres he => h1 p a hpres ?_, h2 arena harena habsent⟩
          rw [hs]
          exact he
      rw [← hw] at hcoh' hres
      refine ⟨⟨home', hcoh'⟩, fun h0 => ⟨home', hcoh', ?_⟩⟩
      obtain ⟨f, hf, hfz⟩ := hres (hret h0)
      have hentry : s'.world.entry x.process x.uaddr = ⟨f, true, true, true⟩ := hf
      rw [hentry]
      exact ⟨rfl, hfz⟩
  by_cases hdone : (s.fault E x).retval = 0 ∧
      Pte.allows (s'.world.entry x.process x.uaddr) x.isWrite = true
  · obtain ⟨home', hcoh', hpres, hzero⟩ := hstep.2 hdone.1
    have heq : userAccess E s x = (some (x.perform (s'.world.entry x.process x.uaddr).paddr s'.world).1,
        { s' with world := (x.perform (s'.world.entry x.process x.uaddr).paddr s'.world).2 }) := by
      rw [userAccess, if_neg hallow]
      simp only [← hs']
      rw [if_pos hdone]
    simp only [zeroStep, heq]
    exact hfinish s' home' (hlocf.trans hs) hcoh' hpres hzero
  · have heq : userAccess E s x = (none, s') := by
      rw [userAccess, if_neg hallow]
      simp only [← hs']
      rw [if_neg hdone]
    simp only [zeroStep, heq]
    exact ⟨hlocf.trans hs, hreads, hstep.1⟩

/-- A page taken by another part of the kernel was free. -/
theorem RunCoherent.takePage {t : ZeroRun} (h : RunCoherent loc t) (E : UvmmEnv ZeroWorld) :
    RunCoherent loc (zeroStep E t .takePage) := by
  obtain ⟨hs, hreads, home, hcoh⟩ := h
  obtain ⟨m, hm⟩ : ∃ m, m = (physmemRefPhyspageNew t.system.world.physmem).2 := ⟨_, rfl⟩
  have hm' : m.FreeOk ∧ ∀ g ∈ m.freePpage, g ∈ t.system.world.physmem.freePpage := by
    rcases physmemRefPhyspageNew_cases hcoh.free with ⟨_, heq⟩ | ⟨f, rest, hcons, _, _, hrest, _, hok⟩
    · rw [hm, heq]
      exact ⟨hcoh.free, fun _ hg => hg⟩
    · rw [hm, hrest, hcons]
      exact ⟨hok, fun g hg => List.mem_cons_of_mem _ hg⟩
  have hworld : Coherent loc { t.system.world with physmem := m } t.events home :=
    ⟨hm'.1, hcoh.zero, fun hz => hcoh.zero_not_free (hm'.2 _ hz), hcoh.injective,
      fun l f hf => ⟨(hcoh.page l f hf).1, (hcoh.page l f hf).2.1,
        fun hg => (hcoh.page l f hf).2.2 (hm'.2 f hg)⟩,
      hcoh.permits, hcoh.mapped, hcoh.listed, hcoh.own, hcoh.content, hcoh.untouched⟩
  rw [hm] at hworld
  exact ⟨hs, hreads, home, hworld⟩

end Run

end Desiros.Drivers

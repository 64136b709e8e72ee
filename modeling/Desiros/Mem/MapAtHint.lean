import Desiros.Mem.MapRefines

/-!
# A mapping at a hint

What a program loader knows of `uvmm_map` at a hint: a call that succeeds where `MapRefines` holds leaves the page
map it asks for (`uvmmMap_override`), a call for a free place takes that place (`uvmmMap_at_hint`), and the callbacks
of a resource reach its arenas (`uvmmMap_ops`).
-/

namespace Desiros.Mem

open Desiros.Library

variable {W : Type}

theorem toNat_pageAlignSup (v : UInt32) : (pageAlignSup v).toNat = (v.toNat + 4095) / 4096 * 4096 % 4294967296 :=
  toNat_alignSup v

theorem toNat_pageAlignInf (v : UInt32) : (pageAlignInf v).toNat = v.toNat / 4096 * 4096 := toNat_alignInf v

theorem pageAlignSup_of_aligned {v : UInt32} (h : v.toNat % 4096 = 0) : pageAlignSup v = v := by
  have hv := word_lt v
  rw [word_eq_iff, toNat_pageAlignSup]
  omega

theorem meaning_of_denotes {l : List UvmmArena} {f : Nat → Option PageEntry} (h : Denotes l f) {p : Nat}
    (hp : p % 4096 = 0) : meaning l p = f p := by
  unfold meaning
  rw [h p hp]
  cases f p <;> rfl

/-- The outcome of a call at a hint that succeeds and keeps to the page map asked for. -/
structure MappedAt (s s' : UvmmState W) (uaddr size : UInt32) (entry : Nat → PageEntry) : Prop where
  inv : Inv s'
  denotes : Denotes s'.addressSpace.listArena
    (override (meaning s.addressSpace.listArena) uaddr.toNat size.toNat entry)
  free : Free s.addressSpace.listArena uaddr.toNat size.toNat
  aligned : uaddr.toNat % 4096 = 0
  size_pos : 0 < size.toNat
  top : uaddr.toNat + size.toNat ≤ 4294967296

theorem uvmmMap_override (E : UvmmEnv W) {s s' : UvmmState W} (h : Inv s)
    {hintUaddr size accessRights flags uaddr : UInt32} {resource : UvmmMappedResource} {offsetInResource : UInt64}
    (hmmap : ∀ a w, (E.mmap (resource.mmap.getD 0) a w).1 = 0)
    (hhint : hasFlag (flags &&& (arenaMapShared ||| arenaMapFixed)) arenaMapFixed = false)
    (hret : uvmmMap E s hintUaddr size accessRights flags (some resource) offsetInResource = (0, uaddr, s'))
    (hrefines : MapRefines s.addressSpace.listArena hintUaddr size accessRights flags resource offsetInResource) :
    MappedAt s s' uaddr (pageAlignSup size)
      (askedEntry uaddr accessRights flags resource offsetInResource) := by
  rcases uvmmMap_cases E s hintUaddr size accessRights flags (some resource) offsetInResource with
    ⟨hne, _⟩ | ⟨res, hcheck, _, ⟨hfixed, _⟩ | ⟨_, hne, hr⟩⟩
  · rw [hret] at hne
    exact absurd rfl hne
  · rw [hhint] at hfixed
    cases hfixed
  · obtain rfl : resource = res := Option.some.inj (uvmmMapCheck_ok hcheck).1
    rw [hret] at hr
    have hpos : 0 < (pageAlignSup size).toNat := by
      by_contra hz
      exact hne (findFirstFreeInterval_zero _ _ (by omega))
    have haligned := (uvmmMapCheck_ok hcheck).2
    obtain ⟨u, hat, -⟩ := id hrefines
    have hfind := hat
    rw [MapsAt, hhint, if_neg Bool.false_ne_true] at hfind
    rcases findFirstFreeInterval_cases h.wellFormed hintUaddr hpos with ⟨h0, _⟩ | ⟨_, htop, hfit⟩ | ⟨_, _, hnone, _⟩
    · exact absurd (word_eq_iff.mpr h0) hne
    · have hu : u = findFirstFreeInterval s.addressSpace.listArena hintUaddr (pageAlignSup size) :=
        word_eq_iff.mpr (hfind.fit.unique hfit.fit)
      rw [← hu] at hr htop
      have hm : Placeable s.addressSpace.listArena (s.nextId + 1)
          (askedMapping u size accessRights flags resource offsetInResource s.nextId) :=
        placeable_found h haligned (pageAlignSup_aligned size) hpos rfl rfl hfind.fit htop
      have hden := (insert_refines_iff E (h.allocArena E) hmmap hm hat (fun _ _ => rfl) hr).mpr hrefines
      have huaddr := uvmmMapInsert_uaddr E (s.allocArena E).2 (m := askedMapping u size accessRights flags resource
        offsetInResource s.nextId) hmmap
      rw [← hr] at huaddr
      obtain rfl : uaddr = u := huaddr
      have hinv := (h.allocArena E).uvmmMapInsert E hm
      rw [← hr] at hinv
      exact ⟨hinv, hden, hm.free, hm.aligned, hpos, htop⟩
    · exact absurd hfind (hnone _)

/-- A free place at the hint is where the search stops. -/
theorem findable_hint {l : List UvmmArena} {h n : Nat} (hfree : Free l h n) : Findable l h n h := by
  refine ⟨⟨Nat.le_refl h, hfree, fun g hle hlt => absurd hlt (Nat.not_lt.mpr hle)⟩, ?_⟩
  by_cases hall : ∀ a ∈ l, a.hi ≤ h
  · exact Or.inl hall
  · push Not at hall
    obtain ⟨a, ha, hlt⟩ := hall
    exact Or.inr ⟨a, ha, (hfree a ha).resolve_left (Nat.not_le.mpr hlt)⟩

/-- A call for a free place of user space inserts its mapping there, if there is memory for the arena. -/
theorem uvmmMap_free_hint (E : UvmmEnv W) {s : UvmmState W} (h : Inv s) {hintUaddr size accessRights flags : UInt32}
    {resource : UvmmMappedResource} {offsetInResource : UInt64}
    (hhint : hasFlag (flags &&& (arenaMapShared ||| arenaMapFixed)) arenaMapFixed = false)
    (hcheck : uvmmMapCheck hintUaddr size accessRights flags (some resource) offsetInResource = .ok resource)
    (halloc : (s.allocArena E).1 = true) (hpos : 0 < (pageAlignSup size).toNat) (huser : 1073741824 ≤ hintUaddr.toNat)
    (htop : hintUaddr.toNat + (pageAlignSup size).toNat ≤ 4294967296)
    (hfree : Free s.addressSpace.listArena hintUaddr.toNat (pageAlignSup size).toNat) :
    let m := askedMapping hintUaddr size accessRights flags resource offsetInResource s.nextId
    uvmmMap E s hintUaddr size accessRights flags (some resource) offsetInResource =
        uvmmMapInsert E (s.allocArena E).2 m ∧
      Placeable s.addressSpace.listArena (s.nextId + 1) m ∧
      MapsAt s.addressSpace.listArena hintUaddr size flags hintUaddr := by
  have hstart : searchStart hintUaddr = hintUaddr.toNat := by
    unfold searchStart
    omega
  have hfind : Findable s.addressSpace.listArena (searchStart hintUaddr) (pageAlignSup size).toNat
      hintUaddr.toNat := by
    rw [hstart]
    exact findable_hint hfree
  have hat : MapsAt s.addressSpace.listArena hintUaddr size flags hintUaddr := by
    rw [MapsAt, hhint, if_neg Bool.false_ne_true]
    exact hfind
  have hplace : findFirstFreeInterval s.addressSpace.listArena hintUaddr (pageAlignSup size) = hintUaddr := by
    have hhit : ∀ a ∈ s.addressSpace.listArena, ¬ (hintUaddr.toNat ≤ a.lo ∧
        a.lo < hintUaddr.toNat + (pageAlignSup size).toNat) := by
      intro a ha hin
      have := hfree a ha
      have := (h.wellFormed.arenas a ha).lo_lt_hi
      omega
    rcases findFirstFreeInterval_cases h.wellFormed hintUaddr hpos with ⟨_, hbig | ⟨a, hl, hin⟩⟩ | ⟨_, _, hfit⟩ |
      ⟨_, _, hnone, _⟩
    · omega
    · rw [hstart] at hin
      exact absurd ⟨hin.1, hin.2.1⟩ (hhit a (hl ▸ List.mem_singleton_self a))
    · exact word_eq_iff.mpr (hfit.fit.unique hfind.fit)
    · exact absurd hfind (hnone _)
  have hne : hintUaddr ≠ 0 := by
    intro h0
    rw [h0] at huser
    exact absurd huser (by decide)
  refine ⟨?_, placeable_found h (uvmmMapCheck_ok hcheck).2 (pageAlignSup_aligned size) hpos rfl rfl hfind.fit htop, hat⟩
  have hflag : hasFlag (askedMapping hintUaddr size accessRights flags resource offsetInResource
      s.nextId).flags arenaMapFixed = false := hhint
  have hplace' : findFirstFreeInterval (s.allocArena E).2.addressSpace.listArena hintUaddr
      (askedMapping hintUaddr size accessRights flags resource offsetInResource s.nextId).size = hintUaddr := hplace
  unfold uvmmMap uvmmMapPlace
  rw [hcheck]
  dsimp only
  rw [if_neg (by simp [halloc]), if_neg (by simp [hflag]), hplace', if_neg hne]

/-- The call succeeds. -/
theorem uvmmMap_at_hint (E : UvmmEnv W) {s : UvmmState W} (h : Inv s) {hintUaddr size accessRights flags : UInt32}
    {resource : UvmmMappedResource} {offsetInResource : UInt64}
    (hmmap : ∀ a w, (E.mmap (resource.mmap.getD 0) a w).1 = 0)
    (hhint : hasFlag (flags &&& (arenaMapShared ||| arenaMapFixed)) arenaMapFixed = false)
    (hcheck : uvmmMapCheck hintUaddr size accessRights flags (some resource) offsetInResource = .ok resource)
    (halloc : (s.allocArena E).1 = true) (hpos : 0 < (pageAlignSup size).toNat) (huser : 1073741824 ≤ hintUaddr.toNat)
    (htop : hintUaddr.toNat + (pageAlignSup size).toNat ≤ 4294967296)
    (hfree : Free s.addressSpace.listArena hintUaddr.toNat (pageAlignSup size).toNat) :
    (uvmmMap E s hintUaddr size accessRights flags (some resource) offsetInResource).1 = 0 ∧
      (uvmmMap E s hintUaddr size accessRights flags (some resource) offsetInResource).2.1 = hintUaddr ∧
      MapsAt s.addressSpace.listArena hintUaddr size flags hintUaddr := by
  obtain ⟨heq, hm, hat⟩ := uvmmMap_free_hint E h hhint hcheck halloc hpos huser htop hfree
  rw [heq]
  refine ⟨?_, uvmmMapInsert_uaddr E _ hmmap, hat⟩
  obtain ⟨l', hins, ⟨h0, _⟩ | ⟨_, _, _, ⟨a, w, hfail⟩, _⟩⟩ := uvmmMapInsert_inserted E (h.allocArena E) hm
  · exact h0
  · exact absurd (hmmap a w) hfail

/-! ## Failures and callbacks -/

theorem uvmmMapInsert_zero (E : UvmmEnv W) (s : UvmmState W) {m : NewMapping}
    (hmmap : ∀ a w, (E.mmap (m.resource.mmap.getD 0) a w).1 = 0) : (uvmmMapInsert E s m).1 = 0 := by
  simp only [uvmmMapInsert]
  split
  · rfl
  · rfl
  · rfl
  · simp only [uvmmMapNew]
    rw [if_neg (not_not.mpr (hmmap _ _))]
    rfl

/-- A call at a hint leaves the arenas as they are, or inserts a mapping at an address it found. -/
theorem uvmmMap_hint_cases (E : UvmmEnv W) (s : UvmmState W) {hintUaddr size accessRights flags : UInt32}
    {resource : UvmmMappedResource} {offsetInResource : UInt64}
    (hmmap : ∀ a w, (E.mmap (resource.mmap.getD 0) a w).1 = 0)
    (hhint : hasFlag (flags &&& (arenaMapShared ||| arenaMapFixed)) arenaMapFixed = false) :
    let r := uvmmMap E s hintUaddr size accessRights flags (some resource) offsetInResource
    (r.1 ≠ 0 ∧ r.2.1 = 0 ∧ r.2.2.addressSpace = s.addressSpace) ∨
      (r.1 = 0 ∧ ∃ uaddr, r = uvmmMapInsert E (s.allocArena E).2
        (askedMapping uaddr size accessRights flags resource offsetInResource s.nextId)) := by
  intro r
  obtain ⟨r', hr⟩ : ∃ r', r' = r := ⟨_, rfl⟩
  rw [← hr]
  have hr' : r' = uvmmMap E s hintUaddr size accessRights flags (some resource) offsetInResource := hr
  unfold uvmmMap at hr'
  cases hcheck : uvmmMapCheck hintUaddr size accessRights flags (some resource) offsetInResource with
  | error err =>
    rw [hcheck] at hr'
    rw [hr']
    exact Or.inl ⟨uvmmMapCheck_error hcheck, rfl, rfl⟩
  | ok res =>
    obtain rfl : resource = res := Option.some.inj (uvmmMapCheck_ok hcheck).1
    rw [hcheck] at hr'
    dsimp only at hr'
    split_ifs at hr' with halloc
    · rw [hr']
      exact Or.inl ⟨show (-3 : Int) ≠ 0 by decide, rfl, rfl⟩
    · have hflag : hasFlag (askedMapping hintUaddr size accessRights flags resource offsetInResource
          s.nextId).flags arenaMapFixed = false := hhint
      unfold uvmmMapPlace at hr'
      dsimp only at hr'
      rw [if_neg (by simp [hflag])] at hr'
      split_ifs at hr' with hfound
      · rw [hr']
        exact Or.inl ⟨show (-3 : Int) ≠ 0 by decide, rfl, rfl⟩
      · rw [hr']
        exact Or.inr ⟨uvmmMapInsert_zero E _ hmmap, _, rfl⟩

theorem uvmmMap_failed (E : UvmmEnv W) {s : UvmmState W} (h : Inv s) {hintUaddr size accessRights flags : UInt32}
    {resource : UvmmMappedResource} {offsetInResource : UInt64}
    (hmmap : ∀ a w, (E.mmap (resource.mmap.getD 0) a w).1 = 0)
    (hhint : hasFlag (flags &&& (arenaMapShared ||| arenaMapFixed)) arenaMapFixed = false)
    (hret : (uvmmMap E s hintUaddr size accessRights flags (some resource) offsetInResource).1 ≠ 0) :
    let r := uvmmMap E s hintUaddr size accessRights flags (some resource) offsetInResource
    r.2.1 = 0 ∧ r.2.2.addressSpace = s.addressSpace ∧ Inv r.2.2 := by
  intro r
  have hinv : Inv r.2.2 := by
    rcases uvmmMap_cases E s hintUaddr size accessRights flags (some resource) offsetInResource with
      ⟨_, hinv⟩ | ⟨res, hcheck, _, ⟨hfixed, _⟩ | ⟨_, _, hr⟩⟩
    · exact hinv h
    · rw [hhint] at hfixed
      cases hfixed
    · obtain rfl : resource = res := Option.some.inj (uvmmMapCheck_ok hcheck).1
      rw [hr] at hret
      exact absurd (uvmmMapInsert_zero E _ hmmap) hret
  rcases @uvmmMap_hint_cases W E s hintUaddr size accessRights flags resource offsetInResource hmmap hhint with
    ⟨_, huaddr, has⟩ | ⟨h0, _⟩
  · exact ⟨huaddr, has, hinv⟩
  · exact absurd h0 hret

theorem exists_of_mem_modifyArena {id : Nat} {f : UvmmArena → UvmmArena} {l : List UvmmArena} {a : UvmmArena}
    (h : a ∈ modifyArena id f l) : ∃ b ∈ l, b.id ≠ id ∧ a = b ∨ b.id = id ∧ a = f b := by
  obtain ⟨b, hb, heq⟩ := List.mem_map.mp h
  split_ifs at heq with hid
  · exact ⟨b, hb, Or.inr ⟨hid, heq.symm⟩⟩
  · exact ⟨b, hb, Or.inl ⟨hid, heq.symm⟩⟩

theorem mem_of_mem_linkArena {prev : Option UvmmArena} {arena a : UvmmArena} {l : List UvmmArena}
    (h : a ∈ linkArena prev arena l) : a = arena ∨ a ∈ l := by
  cases prev with
  | none => exact List.mem_cons.mp h
  | some p =>
    obtain ⟨b, hb, hab⟩ := List.mem_flatMap.mp h
    split_ifs at hab
    · rcases List.mem_cons.mp hab with rfl | hin
      · exact Or.inr hb
      · exact Or.inl (List.mem_singleton.mp hin)
    · rw [List.mem_singleton.mp hab]
      exact Or.inr hb

/-- The callbacks of an arena are those of an arena that was there, or those `mmap` set. -/
theorem uvmmMapInsert_ops (E : UvmmEnv W) (s : UvmmState W) {m : NewMapping}
    (hmmap : ∀ a w, (E.mmap (m.resource.mmap.getD 0) a w).1 = 0)
    (hfresh : ∀ b ∈ s.addressSpace.listArena, b.id ≠ m.preId) {a : UvmmArena}
    (ha : a ∈ (uvmmMapInsert E s m).2.2.addressSpace.listArena) :
    (∃ b ∈ s.addressSpace.listArena, a.mappedResource = b.mappedResource ∧ a.ops = b.ops) ∨
      (a.mappedResource = m.resource ∧ ∃ b w, a.ops = (E.mmap (m.resource.mmap.getD 0) b w).2.1) := by
  have hwiden : ∀ {id : Nat} {f : UvmmArena → UvmmArena}, a ∈ modifyArena id f s.addressSpace.listArena →
      (∀ b, (f b).mappedResource = b.mappedResource ∧ (f b).ops = b.ops) →
      ∃ b ∈ s.addressSpace.listArena, a.mappedResource = b.mappedResource ∧ a.ops = b.ops := by
    intro id f hin hf
    obtain ⟨b, hb, ⟨-, heq⟩ | ⟨-, heq⟩⟩ := exists_of_mem_modifyArena hin
    · exact ⟨b, hb, heq ▸ ⟨rfl, rfl⟩⟩
    · exact ⟨b, hb, heq ▸ hf b⟩
  simp only [uvmmMapInsert] at ha
  split at ha
  · rw [mapDone_listArena] at ha
    obtain ⟨hin, -⟩ := List.mem_filter.mp ha
    exact Or.inl (hwiden hin fun _ => ⟨rfl, rfl⟩)
  · rw [mapDone_listArena] at ha
    exact Or.inl (hwiden ha fun _ => ⟨rfl, rfl⟩)
  · rw [mapDone_listArena] at ha
    exact Or.inl (hwiden ha fun _ => ⟨rfl, rfl⟩)
  · simp only [uvmmMapNew] at ha
    rw [if_neg (not_not.mpr (hmmap _ _)), mapDone_listArena] at ha
    obtain ⟨b, hb, ⟨hid, rfl⟩ | ⟨hid, rfl⟩⟩ := exists_of_mem_modifyArena ha
    · rcases mem_of_mem_linkArena hb with rfl | hin
      · exact absurd rfl hid
      · exact Or.inl ⟨a, hin, rfl, rfl⟩
    · rcases mem_of_mem_linkArena hb with rfl | hin
      · exact Or.inr ⟨rfl, _, _, rfl⟩
      · exact absurd hid (hfresh b hin)

end Desiros.Mem

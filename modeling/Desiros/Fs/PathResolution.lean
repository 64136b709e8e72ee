import Desiros.Fs.Vfs

/-!
# Path resolution (`vfs.c`)

The components of a path are the parts between its slashes, without the empty ones and without `.`. `lookup` takes them
off the path one at a time, and looks whether the path is at its end before it knows whether a component follows: after a
slash at the end it looks up an empty name, and with `LOOKUP_PARENT` a slash or a `.` at the end makes the last component
a directory that is entered.

`openNamei_components` says when a path is resolved to what its components name.
-/

namespace Desiros.Fs

variable {δ : Type*}

/-! ## Components -/

/-- The parts of a path that are not empty. -/
def pathParts (path : List UInt8) : List (List UInt8) := (path.splitOn slash).filter (· ≠ [])

def components (path : List UInt8) : List (List UInt8) := (pathParts path).filter (· ≠ [dot])

/-- What stands behind the last slash. -/
def finalPart (path : List UInt8) : List UInt8 := (path.splitOn slash).getLastD []

/-- Looking names up one after the other; `none` if a callback does not return, `some none` if one fails. -/
def walk (cb : δ → List UInt8 → Option (Option δ)) : δ → List (List UInt8) → Option (Option δ)
  | d, [] => some (some d)
  | d, c :: cs =>
    match cb d c with
    | none => none
    | some none => some none
    | some (some d') => walk cb d' cs

/-- The dentry `open_namei` succeeds with, and the name it leaves. -/
def resolved (r : Option (Except Int (Nameidata δ))) : Option (Option (δ × List UInt8)) :=
  r.map fun r => match r with
    | .ok nb => some (nb.dentry, nb.last)
    | .error _ => none

/-- A dentry with a name left. -/
def withName (r : Option (Option δ)) (name : List UInt8) : Option (Option (δ × List UInt8)) :=
  r.map fun r => r.map fun d => (d, name)

section

variable {l : List UInt8}

theorem splitOn_cons_slash : (slash :: l).splitOn slash = [] :: l.splitOn slash :=
  List.splitOn_append_cons_self [] l

theorem getLastD_cons {L : List (List UInt8)} (h : L ≠ []) (a : List UInt8) :
    (a :: L).getLastD [] = L.getLastD [] := by
  cases L with
  | nil => exact absurd rfl h
  | cons b L => rfl

/-- The next component is split off the path. -/
theorem splitOn_next (l : List UInt8) :
    pathParts l = (if (getNextPartPath l).1 = [] then [] else [(getNextPartPath l).1]) ++
        pathParts (getNextPartPath l).2 ∧
      finalPart l = (if (getNextPartPath l).2 = [] then (getNextPartPath l).1 else finalPart (getNextPartPath l).2) ∧
      ((getNextPartPath l).1 = [] → (getNextPartPath l).2 = []) := by
  induction l with
  | nil => exact ⟨rfl, rfl, fun _ => rfl⟩
  | cons c l ih =>
    by_cases hc : c = slash
    · subst hc
      have hnext : getNextPartPath (slash :: l) = getNextPartPath l := rfl
      have hparts : pathParts (slash :: l) = pathParts l := by
        rw [pathParts, splitOn_cons_slash]
        rfl
      have hfinal : finalPart (slash :: l) = finalPart l := by
        rw [finalPart, splitOn_cons_slash, getLastD_cons (List.splitOn_ne_nil slash l)]
        rfl
      rw [hnext, hparts, hfinal]
      exact ih
    · have hskip : (c :: l).dropWhile (· == slash) = c :: l := by
        apply List.dropWhile_cons_of_neg
        simpa using hc
      have hne : (c :: l).takeWhile (· != slash) ≠ [] := by
        rw [List.takeWhile_cons_of_pos (by simpa using hc)]
        exact List.cons_ne_nil _ _
      have hfree : slash ∉ (c :: l).takeWhile (· != slash) := by
        intro hmem
        have := List.mem_takeWhile_imp hmem
        simp at this
      have hsplit := List.takeWhile_append_dropWhile (p := (· != slash)) (l := c :: l)
      have hnext : getNextPartPath (c :: l) =
          ((c :: l).takeWhile (· != slash), (c :: l).dropWhile (· != slash)) := by
        rw [getNextPartPath, hskip]
      have hhead := List.head?_dropWhile_not (p := (· != slash)) (c :: l)
      rw [hnext]
      dsimp only
      generalize (c :: l).takeWhile (· != slash) = name at hne hfree hsplit ⊢
      rw [if_neg hne]
      cases hrest : (c :: l).dropWhile (· != slash) with
      | nil =>
        rw [hrest, List.append_nil] at hsplit
        refine ⟨?_, ?_, fun h => absurd h hne⟩
        · rw [pathParts, ← hsplit, List.splitOn_eq_singleton hfree]
          simp [hne, pathParts]
        · rw [finalPart, ← hsplit, List.splitOn_eq_singleton hfree, if_pos rfl]
          rfl
      | cons s rest =>
        have hs : s = slash := by
          rw [hrest, List.head?_cons] at hhead
          simpa using hhead
        subst hs
        rw [hrest] at hsplit
        have hparts : (c :: l).splitOn slash = name :: rest.splitOn slash := by
          rw [← hsplit, List.splitOn_append_cons_self, List.splitOn_eq_singleton hfree]
          rfl
        refine ⟨?_, ?_, fun h => absurd h hne⟩
        · rw [pathParts, hparts, pathParts, splitOn_cons_slash]
          simp [hne]
        · rw [finalPart, hparts, getLastD_cons (List.splitOn_ne_nil slash rest), if_neg (List.cons_ne_nil _ _), finalPart,
            splitOn_cons_slash, getLastD_cons (List.splitOn_ne_nil slash rest)]

end

/-! ## The loop of `lookup` -/

section

variable {cb : δ → List UInt8 → Option (Option δ)} {l : List UInt8}

theorem components_next (l : List UInt8) :
    components l = (if (getNextPartPath l).1 = [] ∨ (getNextPartPath l).1 = [dot] then [] else [(getNextPartPath l).1]) ++
      components (getNextPartPath l).2 := by
  rw [components, (splitOn_next l).1, List.filter_append, components]
  congr 1
  by_cases hempty : (getNextPartPath l).1 = []
  · rw [if_pos hempty, if_pos (Or.inl hempty)]
    rfl
  · by_cases hdot : (getNextPartPath l).1 = [dot]
    · rw [if_neg hempty, if_pos (Or.inr hdot), hdot]
      rfl
    · rw [if_neg hempty, if_neg (not_or.mpr ⟨hempty, hdot⟩)]
      simp [hdot]

/-- The names `lookup` passes to the callback: a slash at the end adds an empty one. -/
def lookedUp (l : List UInt8) : List (List UInt8) :=
  components l ++ if l ≠ [] ∧ finalPart l = [] then [[]] else []

theorem lookedUp_next (h : l ≠ []) : lookedUp l =
    if (getNextPartPath l).1 = [dot] then lookedUp (getNextPartPath l).2
    else (getNextPartPath l).1 :: lookedUp (getNextPartPath l).2 := by
  obtain ⟨-, hfinal, hnil⟩ := splitOn_next l
  rw [lookedUp, lookedUp, components_next l, hfinal]
  generalize (getNextPartPath l).1 = name at hnil ⊢
  generalize (getNextPartPath l).2 = rest at hnil ⊢
  by_cases hempty : name = []
  · have hrest := hnil hempty
    subst hempty hrest
    have hdot : ¬ ([] : List UInt8) = [dot] := by simp
    simp [h, hdot, components, pathParts]
  · by_cases hrest : rest = []
    · subst hrest
      by_cases hdot : name = [dot]
      · subst hdot
        simp [components, pathParts]
      · simp [hempty, hdot]
    · by_cases hdot : name = [dot]
      · simp [hdot, h, hrest]
      · simp [hempty, hdot, h, hrest]

/-- Without `LOOKUP_PARENT` the callback gets these names. -/
theorem lookupLoop_walk (n : Nat) : ∀ nb : Nameidata δ, nb.parent = false → nb.last.length ≤ n →
    (lookupLoop cb n nb).map (fun r => if r.1 = 0 then some r.2.dentry else none) =
      walk cb nb.dentry (lookedUp nb.last) := by
  induction n with
  | zero =>
    intro nb _ hlen
    have hlast : nb.last = [] := List.length_eq_zero_iff.mp (Nat.le_zero.mp hlen)
    rw [lookupLoop, hlast]
    rfl
  | succ n ih =>
    intro nb hparent hlen
    rw [lookupLoop]
    by_cases hlast : nb.last = []
    · rw [if_pos hlast, hlast]
      rfl
    · have hlt := getNextPartPath_length_lt hlast
      have hrest : (getNextPartPath nb.last).2.length ≤ n := by omega
      rw [if_neg hlast, lookedUp_next hlast]
      dsimp only
      by_cases hdot : (getNextPartPath nb.last).1 = [dot]
      · rw [if_pos hdot, if_pos hdot]
        exact ih { nb with last := (getNextPartPath nb.last).2 } hparent hrest
      · rw [if_neg hdot, if_neg hdot, if_neg (by rw [hparent]; exact fun h => by cases h.2), walk]
        cases cb nb.dentry (getNextPartPath nb.last).1 with
        | none => rfl
        | some r =>
          cases r with
          | none => rfl
          | some d => exact ih { nb with last := (getNextPartPath nb.last).2, dentry := d } hparent hrest

theorem walk_append (cs : List (List UInt8)) (c : List UInt8) : ∀ d : δ,
    walk cb d (cs ++ [c]) = match walk cb d cs with
      | none => none
      | some none => some none
      | some (some d') => cb d' c := by
  induction cs with
  | nil =>
    intro d
    show walk cb d [c] = cb d c
    rw [walk]
    cases cb d c with
    | none => rfl
    | some r => cases r <;> rfl
  | cons a cs ih =>
    intro d
    rw [List.cons_append, walk, walk]
    cases cb d a with
    | none => rfl
    | some r =>
      cases r with
      | none => rfl
      | some d' => exact ih d'

/-- A part at the end that is a component is the last one. -/
theorem components_final (hempty : finalPart l ≠ []) (hdot : finalPart l ≠ [dot]) :
    components l = (components l).dropLast ++ [finalPart l] := by
  have hsplit := List.dropLast_append_getLast (List.splitOn_ne_nil slash l)
  have hlast : finalPart l = (l.splitOn slash).getLast (List.splitOn_ne_nil slash l) := by
    rw [finalPart, List.getLastD_eq_getLast?, List.getLast?_eq_some_getLast (List.splitOn_ne_nil slash l)]
    rfl
  rw [← hlast] at hsplit
  have hparts : components l =
      (((l.splitOn slash).dropLast.filter (· ≠ [])).filter (· ≠ [dot])) ++ [finalPart l] := by
    rw [components, pathParts, ← hsplit, List.filter_append, List.filter_append, List.dropLast_concat]
    simp [hempty, hdot]
  rw [hparts, List.dropLast_concat]

/-- With `LOOKUP_PARENT` the part at the end is left, or nothing where it is no component. -/
theorem lookupLoop_parent (n : Nat) : ∀ nb : Nameidata δ, nb.parent = true → nb.last ≠ [] → nb.last.length ≤ n →
    (lookupLoop cb n nb).map (fun r => if r.1 = 0 then some (r.2.dentry, r.2.last) else none) =
      if finalPart nb.last = [] ∨ finalPart nb.last = [dot] then
        withName (walk cb nb.dentry (components nb.last)) []
      else withName (walk cb nb.dentry (components nb.last).dropLast) (finalPart nb.last) := by
  induction n with
  | zero =>
    intro nb _ hlast hlen
    exact absurd (List.length_eq_zero_iff.mp (Nat.le_zero.mp hlen)) hlast
  | succ n ih =>
    intro nb hparent hlast hlen
    have hlt := getNextPartPath_length_lt hlast
    have hlen' : (getNextPartPath nb.last).2.length ≤ n := by omega
    obtain ⟨-, hfinal, hnil⟩ := splitOn_next nb.last
    rw [lookupLoop, if_neg hlast, hfinal, components_next nb.last]
    dsimp only
    by_cases hrest : (getNextPartPath nb.last).2 = []
    · -- the component at the end of the path
      rw [if_pos hrest, hrest]
      by_cases hdot : (getNextPartPath nb.last).1 = [dot]
      · rw [if_pos hdot, if_pos (Or.inr hdot), if_pos (Or.inr hdot)]
        cases n with
        | zero => rfl
        | succ n =>
          rw [lookupLoop, if_pos rfl]
          rfl
      · rw [if_neg hdot, if_pos ⟨rfl, hparent⟩]
        by_cases hempty : (getNextPartPath nb.last).1 = []
        · rw [if_pos (Or.inl hempty), if_pos (Or.inl hempty), hempty]
          rfl
        · rw [if_neg (not_or.mpr ⟨hempty, hdot⟩), if_neg (not_or.mpr ⟨hempty, hdot⟩)]
          rfl
    · have hempty : (getNextPartPath nb.last).1 ≠ [] := fun h => hrest (hnil h)
      rw [if_neg hrest]
      by_cases hdot : (getNextPartPath nb.last).1 = [dot]
      · rw [if_pos hdot, if_pos (Or.inr hdot), List.nil_append]
        exact ih { nb with last := (getNextPartPath nb.last).2 } hparent hrest hlen'
      · have hgo : ∀ d, (lookupLoop cb n { nb with last := (getNextPartPath nb.last).2, dentry := d }).map
            (fun r => if r.1 = 0 then some (r.2.dentry, r.2.last) else none) = _ := fun d =>
          ih { nb with last := (getNextPartPath nb.last).2, dentry := d } hparent hrest hlen'
        rw [if_neg hdot, if_neg (fun h => hrest h.1), if_neg (not_or.mpr ⟨hempty, hdot⟩), List.singleton_append]
        by_cases hend : finalPart (getNextPartPath nb.last).2 = [] ∨ finalPart (getNextPartPath nb.last).2 = [dot]
        · rw [if_pos hend, walk]
          simp only [if_pos hend] at hgo
          cases cb nb.dentry (getNextPartPath nb.last).1 with
          | none => rfl
          | some r =>
            cases r with
            | none => rfl
            | some d => exact hgo d
        · obtain ⟨hne, hnd⟩ := not_or.mp hend
          have hcons : components (getNextPartPath nb.last).2 ≠ [] := by
            rw [components_final hne hnd]
            exact List.concat_ne_nil _ _
          rw [if_neg hend, List.dropLast_cons_of_ne_nil hcons, walk]
          simp only [if_neg hend] at hgo
          cases cb nb.dentry (getNextPartPath nb.last).1 with
          | none => rfl
          | some r =>
            cases r with
            | none => rfl
            | some d => exact hgo d

end

/-! ## `open_namei` -/

section

variable {mountList : List MountedFs} {ops : Nat → FsOps δ} {rootVfs : δ} {path name : List UInt8}
  {rest : List (List UInt8)} {mnt : MountedFs}

/-- The first part of the path is the mount point, the others are looked up in the rest. -/
theorem getNextPartPath_mount (h : pathParts path = name :: rest) :
    (getNextPartPath path).1 = name ∧ pathParts (getNextPartPath path).2 = rest ∧ name ≠ [] := by
  obtain ⟨hparts, -, hnil⟩ := splitOn_next path
  rw [h] at hparts
  by_cases hempty : (getNextPartPath path).1 = []
  · rw [if_pos hempty, hnil hempty] at hparts
    cases hparts
  · rw [if_neg hempty, List.singleton_append] at hparts
    obtain ⟨rfl, rfl⟩ := List.cons.inj hparts
    exact ⟨rfl, rfl, hempty⟩

theorem components_nil : components [] = [] := rfl

theorem resolved_lookup (r : Option (Int × Nameidata δ)) :
    resolved (r.map fun r => if r.1 = 0 then .ok r.2 else .error r.1) =
      r.map fun r => if r.1 = 0 then some (r.2.dentry, r.2.last) else none := by
  cases r with
  | none => rfl
  | some r =>
    by_cases hret : r.1 = 0
    · simp [resolved, hret]
    · simp [resolved, hret]

/-- Without `LOOKUP_PARENT`, `open_namei` looks up `lookedUp` of what follows the mount point. -/
theorem openNamei_walk (hparts : pathParts path = name :: rest) (hmnt : getMntFromPath mountList name = some mnt) :
    (resolved (openNamei mountList ops rootVfs false path)).map (Option.map Prod.fst) =
      walk (ops mnt.inst).lookup (ops mnt.inst).getroot (lookedUp (getNextPartPath path).2) := by
  obtain ⟨hname, -, -⟩ := getNextPartPath_mount hparts
  rw [openNamei]
  dsimp only
  rw [hname, hmnt]
  dsimp only
  rw [if_neg (fun h => by cases h.2), resolved_lookup, lookup, Option.map_map,
    ← lookupLoop_walk _ ⟨false, (ops mnt.inst).getroot, some mnt, (getNextPartPath path).2⟩ rfl (Nat.le_refl _)]
  congr 1
  funext r
  by_cases hret : r.1 = 0 <;> simp [hret]

theorem openNamei_parentWalk (hparts : pathParts path = name :: rest)
    (hmnt : getMntFromPath mountList name = some mnt) (hlast : (getNextPartPath path).2 ≠ []) :
    resolved (openNamei mountList ops rootVfs true path) =
      if finalPart (getNextPartPath path).2 = [] ∨ finalPart (getNextPartPath path).2 = [dot] then
        withName (walk (ops mnt.inst).lookup (ops mnt.inst).getroot (components (getNextPartPath path).2)) []
      else
        withName (walk (ops mnt.inst).lookup (ops mnt.inst).getroot (components (getNextPartPath path).2).dropLast)
          (finalPart (getNextPartPath path).2) := by
  obtain ⟨hname, -, -⟩ := getNextPartPath_mount hparts
  rw [openNamei]
  dsimp only
  rw [hname, hmnt]
  dsimp only
  rw [if_neg (fun h => hlast h.1), resolved_lookup, lookup]
  exact lookupLoop_parent _ ⟨true, (ops mnt.inst).getroot, some mnt, (getNextPartPath path).2⟩ rfl hlast (Nat.le_refl _)

theorem withName_walk_dropLast (cb : δ → List UInt8 → Option (Option δ)) (d : δ) {cs : List (List UInt8)} (hcs : cs ≠ [])
    {name : List UInt8} (hname : name ≠ []) :
    withName (walk cb d cs) [] = withName (walk cb d cs.dropLast) name ↔ ∀ d', walk cb d cs.dropLast ≠ some (some d') := by
  obtain ⟨init, c, rfl⟩ := (List.eq_nil_or_concat cs).resolve_left hcs
  rw [List.concat_eq_append, List.dropLast_concat, walk_append]
  cases walk cb d init with
  | none => simp [withName]
  | some r =>
    cases r with
    | none => simp [withName]
    | some d' =>
      -- the last component was to be left, and is looked up
      have hdiff : withName (cb d' c) [] ≠ withName (some (some d')) name := by
        intro heq
        cases hc : cb d' c with
        | none =>
          rw [hc] at heq
          cases heq
        | some r =>
          rw [hc] at heq
          cases r with
          | none => cases heq
          | some d'' =>
            simp only [withName, Option.map_some, Option.some.injEq, Prod.mk.injEq] at heq
            exact hname heq.2.symm
      exact ⟨fun heq => absurd heq hdiff, fun hnone => absurd rfl (hnone d')⟩

/-- **A path is resolved to what its components name** if it does not end in a slash, with `LOOKUP_PARENT` not in `.`
either, and otherwise only where the additional lookup makes no difference. -/
theorem openNamei_components (hparts : pathParts path = name :: rest)
    (hmnt : getMntFromPath mountList name = some mnt) :
    let cs := rest.filter (· ≠ [dot])
    let look := walk (ops mnt.inst).lookup (ops mnt.inst).getroot
    ((resolved (openNamei mountList ops rootVfs false path)).map (Option.map Prod.fst) = look cs ↔
      (finalPart path = [] → ∀ d, look cs = some (some d) → (ops mnt.inst).lookup d [] = some (some d))) ∧
    (∀ h : cs ≠ [], resolved (openNamei mountList ops rootVfs true path) = withName (look cs.dropLast) (cs.getLast h) ↔
      (finalPart path = [] ∨ finalPart path = [dot] → ∀ d, look cs.dropLast ≠ some (some d))) := by
  intro cs look
  obtain ⟨-, hrest, hname⟩ := getNextPartPath_mount hparts
  obtain ⟨-, hfinal, -⟩ := splitOn_next path
  obtain ⟨hfirst, -, -⟩ := getNextPartPath_mount hparts
  have hcs : components (getNextPartPath path).2 = cs := by rw [components, hrest]
  refine ⟨?_, fun hne => ?_⟩
  · rw [openNamei_walk hparts hmnt, lookedUp, hcs]
    by_cases hlast : (getNextPartPath path).2 = []
    · have hpath : finalPart path ≠ [] := by
        rw [hfinal, if_pos hlast, hfirst]
        exact hname
      rw [if_neg (fun h => h.1 hlast), List.append_nil]
      exact ⟨fun _ h => absurd h hpath, fun _ => rfl⟩
    · rw [if_neg hlast] at hfinal
      rw [hfinal]
      by_cases hempty : finalPart (getNextPartPath path).2 = []
      · rw [if_pos ⟨hlast, hempty⟩, walk_append]
        show _ = look cs ↔ _
        cases hwalk : look cs with
        | none => simp [show walk _ _ cs = none from hwalk]
        | some r =>
          rw [show walk _ _ cs = some r from hwalk]
          cases r with
          | none => simp
          | some d => simp [hempty]
      · rw [if_neg (fun h => hempty h.2), List.append_nil]
        exact ⟨fun _ h => absurd h hempty, fun _ => rfl⟩
  · have hlast : (getNextPartPath path).2 ≠ [] := by
      intro hnil
      rw [hnil, components_nil] at hcs
      exact hne hcs.symm
    rw [if_neg hlast] at hfinal
    rw [openNamei_parentWalk hparts hmnt hlast, hfinal, hcs]
    by_cases hend : finalPart (getNextPartPath path).2 = [] ∨ finalPart (getNextPartPath path).2 = [dot]
    · have hgetLast : cs.getLast hne ≠ [] := by
        have hmem := List.getLast_mem hne
        have hpart : cs.getLast hne ∈ pathParts (getNextPartPath path).2 := hrest ▸ (List.mem_filter.mp hmem).1
        exact of_decide_eq_true (List.mem_filter.mp hpart).2
      rw [if_pos hend, imp_iff_right hend]
      exact withName_walk_dropLast _ _ hne hgetLast
    · obtain ⟨hempty, hdot⟩ := not_or.mp hend
      have hcomp := components_final hempty hdot
      rw [hcs] at hcomp
      have hgetLast : cs.getLast hne = finalPart (getNextPartPath path).2 := by
        rw [List.getLast_congr hne (List.concat_ne_nil _ _) hcomp, List.getLast_append_singleton]
      rw [if_neg hend, hgetLast]
      exact ⟨fun _ h => absurd h hend, fun _ => rfl⟩

end

/-! ## An example -/

/-- A file system in which every name but the empty one is found; a dentry is its path. -/
def namedOps : FsOps (List (List UInt8)) := ⟨[], fun d name => some (if name = [] then none else some (d ++ [name]))⟩

def mountM : MountedFs := ⟨0, [109]⟩

/-- `/m/a/./b` -/
theorem openNamei_components_ab :
    (resolved (openNamei [mountM] (fun _ => namedOps) [] false [47, 109, 47, 97, 47, 46, 47, 98])).map
        (Option.map Prod.fst) = some (some [[97], [98]]) ∧
      resolved (openNamei [mountM] (fun _ => namedOps) [] true [47, 109, 47, 97, 47, 46, 47, 98]) =
        some (some ([[97]], [98])) := by
  have hlaw := @openNamei_components _ [mountM] (fun _ => namedOps) [] [47, 109, 47, 97, 47, 46, 47, 98] [109]
    [[97], [46], [98]] mountM (by decide) (by decide)
  constructor
  · apply (hlaw.1.mpr _).trans
    · decide
    · intro h
      exact absurd h (by decide)
  · apply (hlaw.2 (by decide)).mpr
    intro h
    exact absurd h (by decide)

/-- `/m/a/` is not found, although `a` is; its parent is taken to be `a` itself. -/
theorem openNamei_trailingSlash :
    pathParts [47, 109, 47, 97, 47] = [[109], [97]] ∧
    walk namedOps.lookup namedOps.getroot [[97]] = some (some [[97]]) ∧
    resolved (openNamei [mountM] (fun _ => namedOps) [] false [47, 109, 47, 97, 47]) = some none ∧
    resolved (openNamei [mountM] (fun _ => namedOps) [] true [47, 109, 47, 97, 47]) = some (some ([[97]], [])) := by
  decide

end Desiros.Fs

import JsonService.Route.Table

/-!
# Routes and their values

A table of routes carries values that it never looks at. `Tree.map` and `Table.map` put other values in their
place.

**Results.**
* `Tree.add_map`, `Table.insert_map`: a route is registered, or refused with the same words, whatever it leads
  to.
* `Tree.find_map`, `Table.lookup_map`: and it is found by the same paths, with the same parameters.
-/
namespace JsonService.Route

variable {α β : Type}

def Leaf.map (f : α → β) (l : Leaf α) : Leaf β := ⟨f l.value, l.names⟩

mutual

def Tree.map (f : α → β) : Tree α → Tree β
  | .node label priority leaf branches wild =>
    .node label priority (leaf.map (Leaf.map f)) (mapBranches f branches) (mapWild f wild)

def mapBranches (f : α → β) : List (UInt8 × Tree α) → List (UInt8 × Tree β)
  | [] => []
  | (key, t) :: rest => (key, t.map f) :: mapBranches f rest

def mapWild (f : α → β) : Option (Wild α) → Option (Wild β)
  | none => none
  | some w => some (w.map f)

def Wild.map (f : α → β) : Wild α → Wild β
  | .parameter label leaf suffixes => .parameter label (leaf.map (Leaf.map f)) (mapSuffixes f suffixes)
  | .rest label leaf => .rest label (leaf.map f)

def mapSuffixes (f : α → β) : List (Tree α) → List (Tree β)
  | [] => []
  | t :: rest => t.map f :: mapSuffixes f rest

end

theorem mapBranches_eq (f : α → β) (bs : List (UInt8 × Tree α)) :
    mapBranches f bs = bs.map fun b => (b.1, b.2.map f) := by
  induction bs with
  | nil => rfl
  | cons b rest ih => simp [mapBranches, ih]

theorem mapSuffixes_eq (f : α → β) (ts : List (Tree α)) : mapSuffixes f ts = ts.map (Tree.map f) := by
  induction ts with
  | nil => rfl
  | cons t rest ih => simp [mapSuffixes, ih]

theorem mapWild_eq (f : α → β) (w : Option (Wild α)) : mapWild f w = w.map (Wild.map f) := by
  cases w <;> rfl

section
variable (f : α → β)

@[simp] theorem Tree.label_map (t : Tree α) : (t.map f).label = t.label := by
  cases t
  rfl

@[simp] theorem Tree.priority_map (t : Tree α) : (t.map f).priority = t.priority := by
  cases t
  rfl

@[simp] theorem namesOf_map (leaf : Option (Leaf α)) : namesOf (leaf.map (Leaf.map f)) = namesOf leaf := by
  cases leaf <;> rfl

/-! ## Registering -/

mutual

theorem Tree.firstRoute_map (t : Tree α) : (t.map f).firstRoute = t.firstRoute := by
  cases t with
  | node label priority leaf branches wild =>
    simp only [Tree.map, Tree.firstRoute, namesOf_map]
    rw [firstBranch_map branches, firstWild_map wild]

theorem firstBranch_map (bs : List (UInt8 × Tree α)) : firstBranch (mapBranches f bs) = firstBranch bs := by
  cases bs with
  | nil => rfl
  | cons b rest =>
    obtain ⟨key, t⟩ := b
    simp only [mapBranches, firstBranch, Tree.label_map]
    rw [Tree.firstRoute_map t]

theorem firstWild_map (w : Option (Wild α)) : firstWild (mapWild f w) = firstWild w := by
  cases w with
  | none => rfl
  | some w =>
    simp only [mapWild, firstWild]
    rw [Wild.firstRoute_map w]
    cases w <;> rfl

theorem Wild.firstRoute_map (w : Wild α) : (w.map f).firstRoute = w.firstRoute := by
  cases w with
  | parameter label leaf suffixes =>
    simp only [Wild.map, Wild.firstRoute, namesOf_map]
    rw [firstSuffix_map suffixes]
  | rest label leaf => rfl

theorem firstSuffix_map (ts : List (Tree α)) : firstSuffix (mapSuffixes f ts) = firstSuffix ts := by
  cases ts with
  | nil => rfl
  | cons t rest =>
    simp only [mapSuffixes, firstSuffix, Tree.label_map]
    rw [Tree.firstRoute_map t]

end

theorem insertSuffix_map (t : Tree α) (ts : List (Tree α)) :
    insertSuffix (t.map f) (ts.map (Tree.map f)) = (insertSuffix t ts).map (Tree.map f) := by
  simp [insertSuffix, List.takeWhile_map, Function.comp_def]

theorem addBranch_map (key : UInt8) (t : Tree α) (bs : List (UInt8 × Tree α)) :
    addBranch key (t.map f) (bs.map fun b => (b.1, b.2.map f)) =
      (addBranch key t bs).map fun b => (b.1, b.2.map f) := by
  simp [addBranch, ← List.map_reverse, List.takeWhile_map, Function.comp_def]

theorem promote_map (before : List (UInt8 × Tree α)) (b : UInt8 × Tree α) (after : List (UInt8 × Tree α)) :
    promote (before.map fun b => (b.1, b.2.map f)) (b.1, b.2.map f) (after.map fun b => (b.1, b.2.map f)) =
      (promote before b after).map fun b => (b.1, b.2.map f) := by
  simp [promote, ← List.map_reverse, List.takeWhile_map, Function.comp_def]

theorem sproutWild_map {growA : List Cell → List Cell → Outcome × Tree α}
    {growB : List Cell → List Cell → Outcome × Tree β}
    (h : ∀ suffix cs, growB suffix cs = ((growA suffix cs).1, (growA suffix cs).2.map f))
    (leaf : Leaf α) (count : Nat) (cs : List Cell) :
    sproutWild growB (leaf.map f) count cs =
      ((sproutWild growA leaf count cs).1, mapWild f (sproutWild growA leaf count cs).2) := by
  unfold sproutWild
  split
  · split <;> rfl
  · simp only
    split
    · rfl
    · split
      · rfl
      · simp [h, mapWild, Wild.map, mapSuffixes]

mutual

theorem sprout_map (leaf : Leaf α) (priority fuel : Nat) (cs : List Cell) :
    sprout (leaf.map f) priority fuel cs =
      ((sprout leaf priority fuel cs).1, (sprout leaf priority fuel cs).2.map f) := by
  cases fuel with
  | zero => rfl
  | succ fuel =>
    simp only [sprout]
    split
    · rfl
    · rfl
    · rename_i start count _
      rw [sproutWild_map f (fun suffix cs => sproutSuffix_map leaf fuel suffix cs)]
      rcases sproutWild (sproutSuffix leaf fuel) leaf count (cs.drop start) with ⟨outcome, wild⟩
      cases outcome with
      | ok => rfl
      | error e => cases e <;> cases wild <;> rfl

theorem sproutSuffix_map (leaf : Leaf α) (fuel : Nat) (suffix cs : List Cell) :
    sproutSuffix (leaf.map f) fuel suffix cs =
      ((sproutSuffix leaf fuel suffix cs).1, (sproutSuffix leaf fuel suffix cs).2.map f) := by
  cases fuel with
  | zero => rfl
  | succ fuel =>
    cases cs with
    | nil => rfl
    | cons c cs =>
      simp only [sproutSuffix]
      split
      · split
        · rw [sproutWild_map f (fun suffix cs => sproutSuffix_map leaf fuel suffix cs)]
          simp [Tree.map, mapBranches]
        · rfl
        · rfl
      · rw [sprout_map leaf 1 fuel (c :: cs)]
        simp [Tree.map, mapBranches, mapWild]

end

theorem growWild_map (leaf : Leaf α) (cs : List Cell) :
    growWild (leaf.map f) cs = ((growWild leaf cs).1, mapWild f (growWild leaf cs).2) := by
  unfold growWild
  split
  · exact sproutWild_map f (fun suffix cs => sproutSuffix_map f leaf _ suffix cs) leaf _ cs
  · rfl
  · rfl

mutual

theorem Tree.insert_map (route : List Cell) (leaf : Leaf α) (cs : List Cell) (t : Tree α) :
    (t.map f).insert route (leaf.map f) cs =
      ((t.insert route leaf cs).1, (t.insert route leaf cs).2.map f) := by
  cases t with
  | node label priority value branches wild =>
    simp only [Tree.map, Tree.insert]
    split
    · split
      · rfl
      · split
        · rw [growWild_map f]
          rfl
        · rw [sprout_map f]
          simp [Tree.map, mapBranches_eq, mapWild_eq, ← addBranch_map]
    · split
      · cases value <;> rfl
      · rename_i c rest _
        have below : (if c.leads then insertBranch route (leaf.map f) (c :: rest) [] (mapBranches f branches)
            else none) = (if c.leads then insertBranch route leaf (c :: rest) [] branches else none).map
              fun r => (r.1, mapBranches f r.2) := by
          split
          · exact insertBranch_map route leaf (c :: rest) [] branches
          · rfl
        rw [below]
        cases (if c.leads then insertBranch route leaf (c :: rest) [] branches else none) with
        | some r => rfl
        | none =>
          simp only [Option.map_none]
          split
          · rw [insertWild_map route leaf (c :: rest) wild]
            rfl
          · rw [sprout_map f]
            simp [Tree.map, mapBranches_eq, ← addBranch_map]

theorem insertBranch_map (route : List Cell) (leaf : Leaf α) (cs : List Cell)
    (before bs : List (UInt8 × Tree α)) :
    insertBranch route (leaf.map f) cs (mapBranches f before) (mapBranches f bs) =
      (insertBranch route leaf cs before bs).map fun r => (r.1, mapBranches f r.2) := by
  cases bs with
  | nil => rfl
  | cons b rest =>
    obtain ⟨key, t⟩ := b
    simp only [mapBranches, insertBranch]
    split
    · rw [Tree.insert_map route leaf cs t]
      simp [mapBranches_eq, ← promote_map]
    · have h := insertBranch_map route leaf cs (before ++ [(key, t)]) rest
      simpa [mapBranches_eq] using h

theorem insertWild_map (route : List Cell) (leaf : Leaf α) (cs : List Cell) (wild : Option (Wild α)) :
    insertWild route (leaf.map f) cs (mapWild f wild) =
      ((insertWild route leaf cs wild).1, mapWild f (insertWild route leaf cs wild).2) := by
  cases wild with
  | none => exact growWild_map f leaf cs
  | some w =>
    simp only [mapWild, insertWild]
    rw [Wild.insert_map route leaf cs w]

theorem Wild.insert_map (route : List Cell) (leaf : Leaf α) (cs : List Cell) (w : Wild α) :
    (w.map f).insert route (leaf.map f) cs =
      ((w.insert route leaf cs).1, (w.insert route leaf cs).2.map f) := by
  cases w with
  | rest label value => rfl
  | parameter label value suffixes =>
    simp only [Wild.map, Wild.insert, namesOf_map, firstSuffix_map]
    split
    · rfl
    · split
      · cases value <;> rfl
      · rw [insertSuffixed_map route leaf _ _ suffixes]
        cases insertSuffixed route leaf _ _ suffixes with
        | some r => rfl
        | none =>
          simp only [Option.map_none]
          split
          · rfl
          · rw [sproutSuffix_map f, mapSuffixes_eq, insertSuffix_map, ← mapSuffixes_eq]
            rfl

theorem insertSuffixed_map (route : List Cell) (leaf : Leaf α) (cs suffix : List Cell)
    (ts : List (Tree α)) :
    insertSuffixed route (leaf.map f) cs suffix (mapSuffixes f ts) =
      (insertSuffixed route leaf cs suffix ts).map fun r => (r.1, mapSuffixes f r.2) := by
  cases ts with
  | nil => rfl
  | cons t rest =>
    simp only [mapSuffixes, insertSuffixed, Tree.label_map]
    split
    · rw [Tree.insert_map route leaf cs t]
      rfl
    · rw [insertSuffixed_map route leaf cs suffix rest]
      cases insertSuffixed route leaf cs suffix rest <;> rfl

end

theorem Tree.add_map (t : Tree α) (path : List UInt8) (value : α) :
    (t.map f).add path (f value) = ((t.add path value).1, (t.add path value).2.map f) := by
  obtain ⟨label, priority, leaf, branches, wild⟩ := t
  simp only [Tree.add]
  cases normalize (cells path) with
  | error e => rfl
  | ok r =>
    obtain ⟨route, names⟩ := r
    have insert := Tree.insert_map f route ⟨value, names⟩ route (.node label priority leaf branches wild)
    have sprout := sprout_map f ⟨value, names⟩ (priority + 1) (route.length + 1) route
    cases label with
    | cons c cs => exact insert
    | nil =>
      cases branches with
      | cons b bs => exact insert
      | nil => cases wild with
        | some w => exact insert
        | none => exact sprout

/-! ## Searching -/

def Match.map (f : α → β) (m : Match α) : Match β := { m with leaf := m.leaf.map f }

theorem Match.map_cons (value : List UInt8) (m : Match α) : (m.map f).cons value = (m.cons value).map f := rfl

mutual

theorem Tree.find_map (path : List UInt8) (t : Tree α) : (t.map f).find path = (t.find path).map (Match.map f) := by
  cases t with
  | node label priority leaf branches wild =>
    simp only [Tree.map, Tree.find]
    split
    · rfl
    · cases leaf <;> rfl
    · rename_i b rest _
      rw [findBranch_map (b :: rest) branches, findWild_map (b :: rest) wild]
      cases findBranch (b :: rest) branches <;> rfl

theorem findBranch_map (path : List UInt8) (bs : List (UInt8 × Tree α)) :
    findBranch path (mapBranches f bs) = (findBranch path bs).map (Match.map f) := by
  cases bs with
  | nil => rfl
  | cons b rest =>
    obtain ⟨key, t⟩ := b
    simp only [mapBranches, findBranch]
    split
    · exact Tree.find_map path t
    · exact findBranch_map path rest

theorem findWild_map (path : List UInt8) (w : Option (Wild α)) :
    findWild path (mapWild f w) = (findWild path w).map (Match.map f) := by
  cases w with
  | none => rfl
  | some w => exact Wild.find_map path w

theorem Wild.find_map (path : List UInt8) (w : Wild α) : (w.map f).find path = (w.find path).map (Match.map f) := by
  cases w with
  | rest label leaf => rfl
  | parameter label leaf suffixes =>
    simp only [Wild.map, Wild.find]
    split
    · rfl
    · rw [findSuffix_map path _ suffixes]
      cases findSuffix path _ suffixes with
      | some found => rfl
      | none =>
        simp only [Option.map_none]
        split
        · rfl
        · cases leaf <;> rfl

theorem findSuffix_map (path : List UInt8) (length : Nat) (ts : List (Tree α)) :
    findSuffix path length (mapSuffixes f ts) = (findSuffix path length ts).map (Option.map (Match.map f)) := by
  cases ts with
  | nil => rfl
  | cons t rest =>
    simp only [mapSuffixes, findSuffix, Tree.label_map]
    split
    · rw [Tree.find_map _ t]
      cases t.find (path.drop (length - t.label.length)) <;> rfl
    · exact findSuffix_map path length rest

end

end

/-! ## Tables -/

def Table.map (f : α → β) (t : Table α) : Table β := { trees := fun m => (t.trees m).map f }

def Lookup.map (f : α → β) : Lookup α → Lookup β
  | .found value params => .found (f value) params
  | .methodNotAllowed => .methodNotAllowed
  | .notFound => .notFound

theorem Table.map_empty (f : α → β) : ({} : Table α).map f = {} := by
  simp [Table.map, Tree.map, Tree.empty, mapBranches, mapWild]

/-- A route is registered, or refused with the same words, whatever it leads to. -/
theorem Table.insert_map (f : α → β) (t : Table α) (method : Method) (path : String) (value : α) :
    (t.map f).insert method path (f value) = ((t.insert method path value).1, (t.insert method path value).2.map f) := by
  simp only [Table.insert, Table.map, Tree.add_map]
  congr 2
  funext m
  split <;> rfl

/-- A path leads to the same place, with the same parameters. -/
theorem Table.lookup_map (f : α → β) (t : Table α) (method : Method) (path : String) :
    (t.map f).lookup method path = (t.lookup method path).map f := by
  have known : ∀ m, (((t.map f).trees m).find (Text.Utf8.bytes path)).isSome =
      ((t.trees m).find (Text.Utf8.bytes path)).isSome := by
    intro m
    simp [Table.map, Tree.find_map]
  simp only [Table.lookup, known]
  simp only [Table.map, Tree.find_map]
  cases (t.trees method).find (Text.Utf8.bytes path) with
  | some m => rfl
  | none =>
    simp only [Option.map_none]
    split <;> rfl

end JsonService.Route

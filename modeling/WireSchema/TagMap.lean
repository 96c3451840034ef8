/-!
# Maps from 32-bit tags

Wire ids, kind tags and registered messages are looked up by a 32-bit number and listed in
ascending order of it.  A `TagMap` is that list, together with the fact that it ascends, so that
every tag occurs at most once and the listing does not depend on the order of the insertions.
-/

namespace WireSchema

/-- A finite map from 32-bit tags, listed in ascending order of the tags. -/
structure TagMap (α : Type) where
  entries : List (UInt32 × α)
  ascending : entries.Pairwise fun a b => a.1 < b.1

namespace TagMap

variable {α : Type}

def empty : TagMap α := ⟨[], List.Pairwise.nil⟩

instance : Inhabited (TagMap α) := ⟨empty⟩

def size (map : TagMap α) : Nat := map.entries.length

def isEmpty (map : TagMap α) : Bool := map.entries.isEmpty

/-- The value of a tag in a list of entries. -/
def lookup (tag : UInt32) : List (UInt32 × α) → Option α
  | [] => none
  | (other, value) :: rest => if other = tag then some value else lookup tag rest

def find? (map : TagMap α) (tag : UInt32) : Option α := lookup tag map.entries

def contains (map : TagMap α) (tag : UInt32) : Bool := (map.find? tag).isSome

/-- An ascending list with the value of one tag set. -/
def place (tag : UInt32) (value : α) : List (UInt32 × α) → List (UInt32 × α)
  | [] => [(tag, value)]
  | (other, held) :: rest =>
    if tag < other then (tag, value) :: (other, held) :: rest
    else if other = tag then (tag, value) :: rest
    else (other, held) :: place tag value rest

theorem mem_place {tag : UInt32} {value : α} {list : List (UInt32 × α)} {entry : UInt32 × α}
    (h : entry ∈ place tag value list) : entry = (tag, value) ∨ entry ∈ list := by
  induction list with
  | nil => exact .inl (by simpa [place] using h)
  | cons head tail ih =>
    obtain ⟨other, held⟩ := head
    simp only [place] at h
    split at h
    · rcases List.mem_cons.1 h with same | later
      · exact .inl same
      · exact .inr later
    · split at h
      · rcases List.mem_cons.1 h with same | later
        · exact .inl same
        · exact .inr (List.mem_cons_of_mem _ later)
      · rcases List.mem_cons.1 h with same | later
        · exact .inr (same ▸ List.mem_cons_self)
        · rcases ih later with same | inside
          · exact .inl same
          · exact .inr (List.mem_cons_of_mem _ inside)

theorem place_ascending (tag : UInt32) (value : α) {list : List (UInt32 × α)}
    (ascending : list.Pairwise fun a b => a.1 < b.1) :
    (place tag value list).Pairwise fun a b => a.1 < b.1 := by
  induction list with
  | nil => simp [place]
  | cons head tail ih =>
    obtain ⟨other, held⟩ := head
    obtain ⟨above, rest⟩ := List.pairwise_cons.1 ascending
    simp only [place]
    split
    · rename_i below
      refine List.pairwise_cons.2 ⟨?_, ascending⟩
      intro entry member
      rcases List.mem_cons.1 member with same | later
      · exact same ▸ below
      · exact UInt32.lt_trans below (above entry later)
    · split
      · rename_i same
        exact List.pairwise_cons.2 ⟨same ▸ above, rest⟩
      · rename_i notBelow different
        refine List.pairwise_cons.2 ⟨?_, ih rest⟩
        intro entry member
        rcases mem_place member with same | inside
        · subst same
          rcases UInt32.lt_or_lt_of_ne different with lower | upper
          · exact lower
          · exact absurd upper notBelow
        · exact above entry inside

/-- The map with the value of one tag set, whether the tag had a value before or not. -/
def insert (map : TagMap α) (tag : UInt32) (value : α) : TagMap α :=
  ⟨place tag value map.entries, place_ascending tag value map.ascending⟩

theorem lookup_place_self (tag : UInt32) (value : α) (list : List (UInt32 × α)) :
    lookup tag (place tag value list) = some value := by
  induction list with
  | nil => simp [place, lookup]
  | cons head tail ih =>
    obtain ⟨other, held⟩ := head
    by_cases below : tag < other
    · simp [place, lookup, below]
    · by_cases same : other = tag
      · simp [place, lookup, same]
      · simp [place, lookup, below, same, ih]

theorem lookup_place_of_ne {tag other : UInt32} (value : α) (list : List (UInt32 × α))
    (different : other ≠ tag) : lookup other (place tag value list) = lookup other list := by
  induction list with
  | nil => simp [place, lookup, Ne.symm different]
  | cons head tail ih =>
    obtain ⟨held, kept⟩ := head
    by_cases below : tag < held
    · simp [place, lookup, below, Ne.symm different]
    · by_cases same : held = tag
      · subst same
        simp [place, lookup, Ne.symm different]
      · simp [place, lookup, below, same, ih]

@[simp] theorem find?_insert_self (map : TagMap α) (tag : UInt32) (value : α) :
    (map.insert tag value).find? tag = some value :=
  lookup_place_self tag value map.entries

theorem find?_insert_of_ne (map : TagMap α) {tag other : UInt32} (value : α)
    (different : other ≠ tag) : (map.insert tag value).find? other = map.find? other :=
  lookup_place_of_ne value map.entries different

end TagMap
end WireSchema

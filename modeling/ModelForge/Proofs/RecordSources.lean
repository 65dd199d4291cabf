/-
`RecordSources.lean` -- where the nodes below a node go.

A record takes each of its fields from one place: from under a key of an object, or from a number
in an array that lists the fields (`Json.part?`). `Record.Tells` says what a value that was read
has to do with what stood at these places, with one rule for each way of making a record. For the
lists in a record the answer is that no item is passed over (`Record.tells_list`), and so it is
for the lists of nodes in each of the shapes.
-/
import ModelForge.Proofs.RecordFields

set_option autoImplicit false

namespace ModelForge

/-! ## Parts of a value -/

/-- What stands in a value under a key, or at a place of an array that lists the fields in their
order. -/
def Json.part? (x : Json) (key : String) (place : Nat) : Option Json :=
  match x with
  | .object fields => fields.lookup key
  | .array items => items[place]?
  | _ => none

/-- The items of an array. Nothing else has items. -/
def Json.itemsOf : Option Json → List Json
  | some (.array items) => items
  | _ => []

/-- The items of the array that stands there. -/
def Json.items (x : Json) (key : String) (place : Nat) : List Json := itemsOf (x.part? key place)

/-- A list that is read to its end gives a result for each of its items. -/
theorem exists_of_mapM {ε α β : Type} {f : α → Except ε β} {items : List α} {results : List β}
    (h : items.mapM f = .ok results) {a : α} (ha : a ∈ items) : ∃ b ∈ results, f a = .ok b :=
  exists_mem_of_forall₂ (mapM_eq_ok_iff.1 h) ha

/-! ## What a record tells of its places -/

/-- What stands under a key or at a place. -/
abbrev Lookup := String → Nat → Option Json

namespace Record

variable {α β : Type}

/-- Every value that the record reads has the property `p` with the places it is read from, where
the first field is the one with the number `start`. -/
structure Tells (record : Record α) (start : Nat) (p : Lookup → α → Prop) : Prop where
  ofFields : ∀ fields a, record.ofFields fields = .complete a → p (fun key _ => fields.lookup key) a
  ofItems : ∀ (items : List Json) a rest, record.ofItems (items.drop start) = .complete a rest →
    p (fun _ place => items[place]?) a ∧ rest = items.drop (start + record.size)

section

variable {start : Nat} {name : String}

/-- Records in a row are told about by each of them. The second begins where the first ends. -/
theorem Tells.seq {f : Record (α → β)} {x : Record α} {p : Lookup → α → Prop}
    {q : Lookup → β → Prop} (hf : f.Tells start fun look g => ∀ a, p look a → q look (g a))
    (hx : x.Tells (start + f.size) p) :
    (f <*> x).Tells start q where
  ofFields fields b hread := by
    obtain ⟨g, a, hg, ha, rfl⟩ := Collected.ap_eq_complete hread
    exact hf.ofFields fields g hg a (hx.ofFields fields a ha)
  ofItems items b rest hread := by
    obtain ⟨g, middle, a, hg, ha, rfl⟩ := exists_of_ofItems_ap hread
    obtain ⟨hq, rfl⟩ := hf.ofItems items g middle hg
    obtain ⟨hp, hrest⟩ := hx.ofItems items a rest ha
    exact ⟨hq a hp, hrest.trans (by rw [Nat.add_assoc]; rfl)⟩

/-- What is made of a value is told about with the value. -/
theorem Tells.map {f : α → β} {x : Record α} {p : Lookup → α → Prop} {q : Lookup → β → Prop}
    (hf : ∀ look a, p look a → q look (f a)) (hx : x.Tells start p) : (f <$> x).Tells start q := by
  have hpure : (pure f : Record (α → β)).Tells start fun look g => ∀ a, p look a →
      q look (g a) := by
    refine ⟨fun fields g hread => ?_, fun items g rest hread => ?_⟩
    · rw [← Collected.complete.inj hread]
      exact hf _
    · obtain ⟨rfl, rfl⟩ := Positional.complete.inj hread
      exact ⟨hf _, rfl⟩
  exact hpure.seq hx

/-- A single field is read from under its key or from the front of an array. -/
theorem Tells.of_field {record : Record α} (key : String) {q : Option Json → α → Prop}
    (hsize : record.size = 1)
    (hfields : ∀ fields a, record.ofFields fields = .complete a → q (fields.lookup key) a)
    (hitems : ∀ items a rest, record.ofItems items = .complete a rest →
      q items.head? a ∧ rest = items.tail) :
    record.Tells start fun look => q (look key start) where
  ofFields := hfields
  ofItems items a rest hread := by
    have hfront := hitems _ a rest hread
    rwa [List.head?_drop, List.tail_drop, ← hsize] at hfront

variable {decoder : Decoder α} {q : Option Json → α → Prop}

/-- A required field is told about if its decoder is. -/
theorem tells_required (h : ∀ x a, decoder x = .ok a → q (some x) a) :
    (required name decoder).Tells start fun look => q (look name start) := by
  refine .of_field name rfl (fun fields a hread => ?_) fun items a rest hread => ?_
  · unfold required at hread
    dsimp only at hread
    split at hread
    · rename_i x hx
      rw [hx]
      exact h x a (eq_complete_of_collect hread)
    · exact absurd hread (by simp)
  · rcases eq_complete_of_first hread with ⟨-, habsent⟩ | ⟨x, rfl, hx⟩
    · exact absurd habsent (by simp)
    · exact ⟨h x a hx, rfl⟩

/-- A field with a default is told about if its decoder is, and the default too. -/
theorem tells_withDefault {default : α} (hdefault : q none default)
    (h : ∀ x a, decoder x = .ok a → q (some x) a) :
    (withDefault name default decoder).Tells start fun look => q (look name start) := by
  refine .of_field name rfl (fun fields a hread => ?_) fun items a rest hread => ?_
  · unfold withDefault at hread
    dsimp only at hread
    split at hread
    · rename_i x hx
      rw [hx]
      exact h x a (eq_complete_of_collect hread)
    · rename_i habsent
      rw [habsent, ← Collected.complete.inj hread]
      exact hdefault
  · rcases eq_complete_of_first hread with ⟨rfl, habsent⟩ | ⟨x, rfl, hx⟩
    · obtain ⟨rfl, rfl⟩ := Positional.complete.inj habsent
      exact ⟨hdefault, rfl⟩
    · exact ⟨h x a hx, rfl⟩

/-! Of most fields nothing need be told. -/

theorem untold_required : (required name decoder).Tells start fun _ _ => True :=
  tells_required (q := fun _ _ => True) fun _ _ _ => trivial

theorem untold_withDefault {default : α} :
    (withDefault name default decoder).Tells start fun _ _ => True :=
  tells_withDefault (q := fun _ _ => True) trivial fun _ _ _ => trivial

theorem untold_optional : (optional name decoder).Tells start fun _ _ => True := by
  refine .of_field name (q := fun _ _ => True) rfl (fun _ _ _ => trivial)
    fun items a rest hread => ?_
  rcases eq_complete_of_first hread with ⟨-, habsent⟩ | ⟨x, rfl, -⟩
  · exact absurd habsent (by simp)
  · exact ⟨trivial, rfl⟩

end

end Record

/-! ## No item is passed over -/

/-- Each item of what stands at a place was read to one of the results. -/
def ReadsAll {α : Type} (item : Decoder α) (found : Option Json) (results : List α) : Prop :=
  ∀ x ∈ Json.itemsOf found, ∃ a ∈ results, item x = .ok a

section

variable {α : Type} {item : Decoder α}

/-- Every item of a list is read. -/
theorem readsAll_list (x : Json) (results : List α) (h : Decoder.list item x = .ok results) :
    ReadsAll item (some x) results := by
  unfold Decoder.list at h
  split at h
  · exact fun y hy => exists_of_mapM h hy
  · exact absurd h (by simp)

/-- A field that holds a list tells about each item. -/
theorem Record.tells_list {start : Nat} {name : String} :
    (withDefault name [] (.list item)).Tells start fun look => ReadsAll item (look name start) :=
  tells_withDefault (fun _ hmem => absurd hmem List.not_mem_nil) readsAll_list

/-- A record is an object with its fields or an array of them. -/
theorem Decoder.tells_record {name : String} {record : Record α} {x : Json} {a : α}
    {p : Lookup → α → Prop} (hread : Decoder.record name record x = .ok a) (h : record.Tells 0 p) :
    p x.part? a := by
  unfold Decoder.record at hread
  split at hread
  · split at hread
    · rename_i hfields
      obtain rfl := Except.ok.inj hread
      exact h.ofFields _ _ hfields
    · exact absurd hread (by simp)
    · exact absurd hread (by simp)
  · split at hread
    · rename_i hitems
      obtain rfl := Except.ok.inj hread
      exact (h.ofItems _ _ _ hitems).1
    · exact absurd hread (by simp)
    · exact absurd hread (by simp)
    · exact absurd hread (by simp)
  · exact absurd hread (by simp)

end

end ModelForge

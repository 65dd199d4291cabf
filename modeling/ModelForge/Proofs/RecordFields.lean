/-
`RecordFields.lean` -- what a record is read from.

A record is put together from its fields, so what is to be known of it is put together in the same
way. Two questions are asked of a record here. Which value do the fields of an object give
(`Record.Reads`)? And what can be said of every value that is read from an object or an array
whose numbers are in range (`Record.Ensures`)? Both have one rule for each way of making a record,
and the rules follow the shape `f <$> x <*> y`.
-/
import ModelForge.Proofs.Loading
import ModelForge.Proofs.NumberRange

set_option autoImplicit false

namespace ModelForge

/-! ## Fields that are there -/

namespace Record

variable {α β : Type}

/-- The fields of an object give a value. -/
def Reads (record : Record α) (fields : List (String × Json)) (a : α) : Prop :=
  record.ofFields fields = .complete a

section

variable {fields : List (String × Json)} {name : String} {decoder : Decoder α}
    {found : Json} {a : α}

/-- A function of a group of fields is applied to what they hold. -/
theorem Reads.map {x : Record α} (f : α → β) (h : x.Reads fields a) :
    (f <$> x).Reads fields (f a) := by
  show (Collected.complete f).ap (x.ofFields fields) = _
  rw [h]
  rfl

/-- Two groups of fields are read side by side. -/
theorem Reads.seq {f : Record (α → β)} {x : Record α} {g : α → β} (hf : f.Reads fields g)
    (hx : x.Reads fields a) : (f <*> x).Reads fields (g a) := by
  show (f.ofFields fields).ap (x.ofFields fields) = _
  rw [hf, hx]
  rfl

/-- A required field is read as what it holds. -/
theorem reads_required (hfound : fields.lookup name = some found) (ha : decoder found = .ok a) :
    (required name decoder).Reads fields a := by
  simp only [Reads, required, hfound, ha, collect]

/-- A field with a default is read as what it holds. -/
theorem reads_withDefault {default : α} (hfound : fields.lookup name = some found)
    (ha : decoder found = .ok a) : (withDefault name default decoder).Reads fields a := by
  simp only [Reads, withDefault, hfound, ha, collect]

/-- Without it the default is taken. -/
theorem reads_withDefault_of_absent (habsent : fields.lookup name = none) :
    (withDefault name a decoder).Reads fields a := by
  simp only [Reads, withDefault, habsent]

/-- An optional field is read as what it holds, or as nothing if that is null. -/
theorem reads_optional {value : Option α} (hfound : fields.lookup name = some found)
    (hvalue : decoder.nullable found = .ok value) : (optional name decoder).Reads fields value := by
  simp only [Reads, optional, hfound, hvalue, collect]

/-- Without it nothing is read. -/
theorem reads_optional_of_absent (habsent : fields.lookup name = none) :
    (optional name decoder).Reads fields none := by
  simp only [Reads, optional, habsent]

end

end Record

/-- A record is decoded as its fields are read. -/
theorem Decoder.record_of_reads {α : Type} {record : Record α} {fields : List (String × Json)}
    {a : α} (name : String) (h : record.Reads fields a) :
    Decoder.record name record (.object fields) = .ok a := by
  simp only [Decoder.record, show record.ofFields fields = .complete a from h]

/-! ## Values whose numbers are in range -/

/-- Of every value whose numbers are in range the decoder makes something with the property. -/
def Decoder.Ensures {α : Type} (decoder : Decoder α) (p : α → Prop) : Prop :=
  ∀ x, x.InRange → ∀ a, decoder x = .ok a → p a

/-- The same for a record, from the fields of an object or from the front of an array. -/
structure Record.Ensures {α : Type} (record : Record α) (p : α → Prop) : Prop where
  ofFields : ∀ fields, (∀ field ∈ fields, field.2.InRange) →
    ∀ a, record.ofFields fields = .complete a → p a
  ofItems : ∀ items, (∀ item ∈ items, item.InRange) →
    ∀ a rest, record.ofItems items = .complete a rest → p a ∧ ∀ item ∈ rest, item.InRange

/-- Two groups give a value only if both of them do. -/
theorem Collected.ap_eq_complete {α β : Type} {f : Collected (α → β)} {x : Collected α} {b : β}
    (h : f.ap x = .complete b) : ∃ g a, f = .complete g ∧ x = .complete a ∧ b = g a := by
  cases f with
  | complete g =>
      cases x with
      | complete a => exact ⟨g, a, rfl, rfl, (Collected.complete.inj h).symm⟩
      | missing field => exact absurd h (by simp [ap])
      | wrong field m => exact absurd h (by simp [ap])
  | missing field =>
      cases x <;> exact absurd h (by simp [ap])
  | wrong field m =>
      cases x with
      | complete a => exact absurd h (by simp [ap])
      | missing field' => exact absurd h (by simp [ap])
      | wrong field' m' =>
          rw [ap] at h
          split at h <;> exact absurd h (by simp)

namespace Decoder

variable {α : Type} {p : α → Prop}

theorem ensures_true (decoder : Decoder α) : decoder.Ensures fun _ => True :=
  fun _ _ _ _ => trivial

/-- Every value has what any value has. -/
theorem ensures_any : any.Ensures Json.InRange := by
  intro x hx a ha
  obtain rfl := Except.ok.inj ha
  exact hx

/-- A double is finite, be it written as one or as an integer. -/
theorem ensures_double : double.Ensures fun x => x.isFinite = true := by
  intro x hx a ha
  unfold double at ha
  split at ha
  · obtain rfl := Except.ok.inj ha
    cases hx with
    | number hn => exact hn
  · obtain rfl := Except.ok.inj ha
    cases hx with
    | number hn => exact Binary64.isFinite_ofInt hn
  · exact absurd ha (by simp)

end Decoder

namespace Decoder

variable {α : Type} {p : α → Prop}

/-- A list has items that each have what one has. -/
theorem ensures_list {item : Decoder α} (hitem : item.Ensures p) :
    (list item).Ensures fun results => ∀ a ∈ results, p a := by
  intro x hx results h
  unfold list at h
  split at h
  · cases hx with
    | array hitems =>
        intro a ha
        obtain ⟨found, hfound, hread⟩ := exists_of_mem_mapM h ha
        exact hitem found (hitems found hfound) a hread
  · exact absurd h (by simp)

/-- A record has what its fields give and its items give. -/
theorem ensures_record {record : Record α} (name : String) (h : record.Ensures p) :
    (Decoder.record name record).Ensures p := by
  intro x hx a ha
  unfold Decoder.record at ha
  split at ha
  · cases hx with
    | object hfields =>
        split at ha
        · rename_i hread
          obtain rfl := Except.ok.inj ha
          exact h.ofFields _ hfields _ hread
        · exact absurd ha (by simp)
        · exact absurd ha (by simp)
  · cases hx with
    | array hitems =>
        split at ha
        · rename_i hread
          obtain rfl := Except.ok.inj ha
          exact (h.ofItems _ hitems _ _ hread).1
        · exact absurd ha (by simp)
        · exact absurd ha (by simp)
        · exact absurd ha (by simp)
  · exact absurd ha (by simp)

end Decoder

namespace Record

variable {α β : Type} {p : α → Prop} {q : β → Prop}

/-- An array that gives the value of two groups of fields gives that of each. -/
theorem exists_of_ofItems_ap {f : Record (α → β)} {x : Record α} {items rest : List Json} {b : β}
    (h : (f.ap x).ofItems items = .complete b rest) :
    ∃ g middle a, f.ofItems items = .complete g middle ∧ x.ofItems middle = .complete a rest
      ∧ g a = b := by
  unfold ap at h
  dsimp only at h
  split at h
  · rename_i g middle hg
    split at h
    · rename_i a rest' ha
      obtain ⟨rfl, rfl⟩ := Positional.complete.inj h
      exact ⟨g, middle, a, hg, ha, rfl⟩
    · exact absurd h (by simp)
    · exact absurd h (by simp)
  · exact absurd h (by simp)
  · exact absurd h (by simp)

/-- Fields one after the other. -/
theorem Ensures.seq {f : Record (α → β)} {x : Record α} (hf : f.Ensures fun g => ∀ a, p a → q (g a))
    (hx : x.Ensures p) : (f <*> x).Ensures q where
  ofFields fields hfields b hread := by
    obtain ⟨g, a, hg, ha, rfl⟩ := Collected.ap_eq_complete hread
    exact hf.ofFields fields hfields g hg a (hx.ofFields fields hfields a ha)
  ofItems items hitems b rest hread := by
    obtain ⟨g, middle, a, hg, ha, rfl⟩ := exists_of_ofItems_ap hread
    obtain ⟨hp, hmiddle⟩ := hf.ofItems items hitems g middle hg
    exact (hx.ofItems middle hmiddle a rest ha).imp_left (hp a)

/-- A function of a group of fields is a group without fields in front of them. -/
theorem Ensures.map {f : α → β} {x : Record α} (hf : ∀ a, p a → q (f a)) (hx : x.Ensures p) :
    (f <$> x).Ensures q := by
  have hpure : (pure f : Record (α → β)).Ensures fun g => ∀ a, p a → q (g a) := by
    refine ⟨fun fields _ g hread => ?_, fun items hitems g rest hread => ?_⟩
    · rw [← Collected.complete.inj hread]
      exact hf
    · obtain ⟨rfl, rfl⟩ := Positional.complete.inj hread
      exact ⟨hf, hitems⟩
  exact hpure.seq hx

theorem eq_complete_of_collect {name : String} {result : Except Mismatch α} {a : α}
    (h : collect name result = .complete a) : result = .ok a := by
  cases result with
  | ok b => rw [Collected.complete.inj h]
  | error m => exact absurd h (by simp [collect])

/-- The first item of an array gives the field, or the array is at its end. -/
theorem eq_complete_of_first {decoder : Decoder α} {absent : Positional α} {items rest : List Json}
    {a : α} (h : first decoder absent items = .complete a rest) :
    (items = [] ∧ absent = .complete a rest)
      ∨ ∃ item, items = item :: rest ∧ decoder item = .ok a := by
  cases items with
  | nil => exact .inl ⟨rfl, h⟩
  | cons item tail =>
      rw [first] at h
      split at h
      · rename_i b hb
        obtain ⟨rfl, rfl⟩ := Positional.complete.inj h
        exact .inr ⟨item, rfl, hb⟩
      · exact absurd h (by simp)

/-- A required field has what its decoder ensures. -/
theorem ensures_required (name : String) {decoder : Decoder α} (h : decoder.Ensures p) :
    (required name decoder).Ensures p where
  ofFields fields hfields a hread := by
    unfold required at hread
    dsimp only at hread
    split at hread
    · rename_i found hfound
      exact h found (hfields _ (mem_of_lookup hfound)) a (eq_complete_of_collect hread)
    · exact absurd hread (by simp)
  ofItems items hitems a rest hread := by
    rcases eq_complete_of_first hread with ⟨-, habsent⟩ | ⟨item, rfl, hitem⟩
    · exact absurd habsent (by simp)
    · rw [List.forall_mem_cons] at hitems
      exact ⟨h item hitems.1 a hitem, hitems.2⟩

/-- An optional field has it too, as long as nothing has. -/
theorem ensures_optional (name : String) {decoder : Decoder α} {p : Option α → Prop}
    (hnone : p none) (h : decoder.nullable.Ensures p) :
    (optional name decoder).Ensures p where
  ofFields fields hfields a hread := by
    unfold optional at hread
    dsimp only at hread
    split at hread
    · rename_i found hfound
      exact h found (hfields _ (mem_of_lookup hfound)) a (eq_complete_of_collect hread)
    · obtain rfl := Collected.complete.inj hread
      exact hnone
  ofItems items hitems a rest hread := by
    rcases eq_complete_of_first hread with ⟨-, habsent⟩ | ⟨item, rfl, hitem⟩
    · exact absurd habsent (by simp)
    · rw [List.forall_mem_cons] at hitems
      exact ⟨h item hitems.1 a hitem, hitems.2⟩

/-- And so has a field with a default, as long as the default has it. -/
theorem ensures_withDefault (name : String) {default : α} {decoder : Decoder α}
    (hdefault : p default) (h : decoder.Ensures p) :
    (withDefault name default decoder).Ensures p where
  ofFields fields hfields a hread := by
    unfold withDefault at hread
    dsimp only at hread
    split at hread
    · rename_i found hfound
      exact h found (hfields _ (mem_of_lookup hfound)) a (eq_complete_of_collect hread)
    · obtain rfl := Collected.complete.inj hread
      exact hdefault
  ofItems items hitems a rest hread := by
    rcases eq_complete_of_first hread with ⟨-, habsent⟩ | ⟨item, rfl, hitem⟩
    · obtain ⟨rfl, rfl⟩ := Positional.complete.inj habsent
      exact ⟨hdefault, fun _ hmem => absurd hmem List.not_mem_nil⟩
    · rw [List.forall_mem_cons] at hitems
      exact ⟨h item hitems.1 a hitem, hitems.2⟩

end Record

end ModelForge

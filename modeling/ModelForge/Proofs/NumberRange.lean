/-
`NumberRange.lean` -- the numbers that a text can give.

A number of a text is an integer of at most 64 bits or a finite double: longer integers and all
other numbers become doubles, and a text whose number is past the largest double is refused.
`Json.InRange` says that of all numbers in a value, and `Json.inRange_of_parse` that every parsed
value is of this kind.

The parser is four functions that call each other. `Keeps` says that whatever a reading step reads
has a property; each function keeps the range if the calls on what is left do, and the calls on
what is left are the induction.
-/
import ModelForge.Json.Parser
import ModelForge.Proofs.KeyedLists
import ModelForge.Proofs.Rounding

set_option autoImplicit false

namespace ModelForge

/-! ## Values with numbers in range -/

/-- An integer of at most 64 bits, or a finite double. -/
def JsonNumber.InRange : JsonNumber → Prop
  | .integer n => n.natAbs < twoPow 64
  | .double x => x.isFinite = true

/-- All numbers in a value are in range. -/
inductive Json.InRange : Json → Prop
  | null : InRange .null
  | boolean (b : Bool) : InRange (.boolean b)
  | number {n : JsonNumber} (hn : n.InRange) : InRange (.number n)
  | text (s : String) : InRange (.text s)
  | array {items : List Json} (hitems : ∀ item ∈ items, InRange item) : InRange (.array items)
  | object {fields : List (String × Json)} (hfields : ∀ field ∈ fields, InRange field.2) :
      InRange (.object fields)

namespace Json

/-- Keys have no numbers in them, so an object is in range if its values are. -/
theorem inRange_ofFields {fields : List (String × Json)}
    (h : ∀ field ∈ fields, field.2.InRange) : (ofFields fields).InRange :=
  .object fun field hfield => h field (KeyedList.mem_of_mem_ofList hfield)

namespace Parser

/-! ## Numbers -/

/-- The significand never grows past 64 bits, as digits that do not fit are counted instead. -/
theorem appendDigits_lt {significand : Nat} (h : significand < twoPow 64) (digits : List Char) :
    (appendDigits significand digits).1 < twoPow 64 := by
  induction digits generalizing significand with
  | nil => exact h
  | cons d rest ih =>
      rw [appendDigits]
      dsimp only
      split
      · rename_i hfits
        refine ih ?_
        have hmax : maxSignificand + 1 = twoPow 64 := rfl
        omega
      · exact h

/-- A token whose value is taken over is in range. What would be infinite has no value. -/
theorem inRange_of_value? {token : NumberToken} {n : JsonNumber} (h : token.value? = some n) :
    n.InRange := by
  have hwhole := appendDigits_lt (twoPow_pos 64) token.wholeDigits
  unfold NumberToken.value? at h
  dsimp only at h
  split at h
  · split at h
    · obtain rfl := Option.some.inj h
      exact hwhole
    · split at h
      · obtain rfl := Option.some.inj h
        show (-((appendDigits 0 token.wholeDigits).1 : Int)).natAbs < twoPow 64
        rwa [Int.natAbs_neg, Int.natAbs_natCast]
      · obtain rfl := Option.some.inj h
        exact Binary64.isFinite_ofSignedBits (Binary64.nearestBits_lt_infinityBits hwhole)
  · obtain ⟨x, hx, rfl⟩ := Option.map_eq_some_iff.1 h
    exact Binary64.isFinite_of_ofDecimal? (appendDigits_lt hwhole token.fractionDigits) hx

/-- A number that is read from a text is in range. -/
theorem inRange_of_number {negative : Bool} {s rest : List Char} {n : JsonNumber}
    (h : number negative s = .ok (n, rest)) : n.InRange := by
  unfold number at h
  -- a fault in any of the three parts ends the reading
  split at h
  · exact absurd h (by simp)
  · split at h
    · exact absurd h (by simp)
    · split at h
      · exact absurd h (by simp)
      · dsimp only at h
        split at h
        · rename_i hvalue
          obtain ⟨rfl, -⟩ := Prod.mk.inj (Except.ok.inj h)
          exact inRange_of_value? hvalue
        · exact absurd h (by simp)

/-! ## Reading steps -/

/-- What a reading step reads has the property. -/
def Keeps {s : List Char} {α : Type} (p : α → Prop) (reading : Reading s α) : Prop :=
  ∀ a rest, reading = .ok (a, rest) → p a

section

variable {α β : Type} {p : α → Prop} {q : β → Prop} {s t : List Char}

/-- A failed reading keeps every property, for there is nothing to have it. -/
theorem keeps_error (fault : TextFault) : Keeps p (.error fault : Reading s α) :=
  fun _ _ h => absurd h (by simp)

theorem keeps_ok {a : α} (h : p a) (rest : Rest s) : Keeps p (.ok (a, rest)) := by
  intro b rest' heq
  obtain ⟨rfl, -⟩ := Prod.mk.inj (Except.ok.inj heq)
  exact h

/-- What holds of a reading holds of it in another form. -/
theorem Keeps.map {reading : Reading s α} {f : α × Rest s → β × Rest t} (h : Keeps p reading)
    (hf : ∀ a rest, p a → q (f (a, rest)).1) : Keeps q (reading.map f) := by
  intro b rest heq
  cases hreading : reading with
  | error fault =>
      rw [hreading] at heq
      exact absurd heq (by simp [Except.map])
  | ok result =>
      rw [hreading] at heq
      have hb : f result = (b, rest) := Except.ok.inj heq
      have hq := hf result.1 result.2 (h result.1 result.2 hreading)
      rwa [hb] at hq

end

/-- Numbers are read in range. -/
theorem keeps_numberStep (negative : Bool) (s : List Char) :
    Keeps Json.InRange (numberStep negative s) := by
  unfold numberStep
  split
  · exact keeps_error _
  · rename_i hnumber
    exact keeps_ok (.number (inRange_of_number hnumber)) _

/-- A word stands for a value without numbers in it. -/
theorem keeps_word (s letters : List Char) {x : Json} (hx : x.InRange) :
    Keeps Json.InRange (word s letters x) := by
  intro y rest h
  unfold word at h
  split at h
  · exact absurd h (by simp)
  · rename_i tail
    cases hword : expectWord letters tail with
    | error fault =>
        rw [hword] at h
        exact absurd h (by simp [Except.map])
    | ok r =>
        rw [hword] at h
        obtain ⟨rfl, -⟩ := Prod.mk.inj (Except.ok.inj h)
        exact hx

/-! ## The four functions -/

/-- All items of a list are in range. -/
abbrev ItemsInRange (items : List Json) : Prop := ∀ item ∈ items, item.InRange

/-- All values of a list of fields are in range. -/
abbrev FieldsInRange (fields : List (String × Json)) : Prop := ∀ field ∈ fields, field.2.InRange

/-- Once a character has been read less is left of the text. -/
theorem length_lt_of_skipBlanks {s rest : List Char} {c : Char} (h : skipBlanks s = c :: rest) :
    rest.length < s.length := by
  have hs := length_skipBlanks_le s
  rw [h, List.length_cons] at hs
  omega

section

variable {depth : Nat} {s : List Char}

/-- A value is in range if the items and the members behind its bracket are. -/
theorem keeps_value
    (hitems : ∀ depth rest, rest.length < s.length → Keeps ItemsInRange (items depth true rest))
    (hmembers : ∀ depth rest, rest.length < s.length →
      Keeps FieldsInRange (members depth true rest)) :
    Keeps Json.InRange (value depth s) := by
  rw [value]
  split
  · exact keeps_error _
  · rename_i c rest hskip
    have hrest := length_lt_of_skipBlanks hskip
    dsimp only
    split
    · exact (keeps_word _ _ .null).map fun _ _ h => h
    split
    · exact (keeps_word _ _ (.boolean true)).map fun _ _ h => h
    split
    · exact (keeps_word _ _ (.boolean false)).map fun _ _ h => h
    split
    · have hbody : Keeps (fun _ => True) (stringBody rest []) := fun _ _ _ => trivial
      exact hbody.map fun string _ _ => .text string
    split
    · exact (keeps_numberStep true rest).map fun _ _ h => h
    split
    · split
      · exact keeps_error _
      · exact (hitems _ rest hrest).map fun _ _ h => .array h
    split
    · split
      · exact keeps_error _
      · exact (hmembers _ rest hrest).map fun _ _ h => inRange_ofFields h
    split
    · exact (keeps_numberStep false _).map fun _ _ h => h
    · exact keeps_error _

/-- Items are in range if every value behind a comma is. -/
theorem keeps_items {first : Bool}
    (hvalue : ∀ rest, rest.length ≤ s.length → Keeps Json.InRange (value depth rest))
    (hitems : ∀ rest, rest.length < s.length → Keeps ItemsInRange (items depth false rest)) :
    Keeps ItemsInRange (items depth first s) := by
  have hnext {rest : List Char} (hrest : rest.length < s.length) {x : Json} (hx : x.InRange)
      {f : List Json × Rest rest → List Json × Rest s} (hf : ∀ xs r, (f (xs, r)).1 = x :: xs) :
      Keeps ItemsInRange ((items depth false rest).map f) := by
    refine (hitems rest hrest).map fun xs r hxs => ?_
    rw [hf]
    exact List.forall_mem_cons.2 ⟨hx, hxs⟩
  rw [items]
  split
  · exact keeps_error _
  · rename_i c rest hskip
    have hrest := length_lt_of_skipBlanks hskip
    dsimp only
    split
    · exact keeps_ok (fun _ h => absurd h List.not_mem_nil) _
    split
    · split
      · exact keeps_error _
      · rename_i x rest' hshorter hx
        rw [List.length_cons] at hshorter
        refine hnext (by omega) (hvalue _ ?_ _ _ hx) fun _ _ => rfl
        exact hrest
    split
    · split
      · exact keeps_error _
      · split
        · exact keeps_error _
        · rename_i x rest' hshorter hx
          exact hnext (by omega) (hvalue rest (by omega) _ _ hx) fun _ _ => rfl
    · exact keeps_error _

/-- A member is in range if the value behind its colon is. -/
theorem keeps_member
    (hvalue : ∀ rest, rest.length < s.length → Keeps Json.InRange (value depth rest)) :
    Keeps (fun field : String × Json => field.2.InRange) (member depth s) := by
  rw [member]
  split
  · exact keeps_error _
  · rename_i key rest hshorter hkey
    split
    · exact keeps_error _
    · rename_i colon rest' hskip
      have hrest := length_lt_of_skipBlanks hskip
      split
      · exact (hvalue rest' (by omega)).map fun _ _ h => h
      · exact keeps_error _

/-- Members are in range if each of them is. -/
theorem keeps_members {first : Bool}
    (hmember : ∀ rest, rest.length < s.length →
      Keeps (fun field : String × Json => field.2.InRange) (member depth rest))
    (hmembers : ∀ rest, rest.length < s.length → Keeps FieldsInRange (members depth false rest)) :
    Keeps FieldsInRange (members depth first s) := by
  have hnext {rest : List Char} (hrest : rest.length < s.length) {x : String × Json}
      (hx : x.2.InRange) {f : List (String × Json) × Rest rest → List (String × Json) × Rest s}
      (hf : ∀ xs r, (f (xs, r)).1 = x :: xs) :
      Keeps FieldsInRange ((members depth false rest).map f) := by
    refine (hmembers rest hrest).map fun xs r hxs => ?_
    rw [hf]
    exact List.forall_mem_cons.2 ⟨hx, hxs⟩
  rw [members]
  split
  · exact keeps_error _
  · rename_i c rest hskip
    have hrest := length_lt_of_skipBlanks hskip
    dsimp only
    split
    · exact keeps_ok (fun _ h => absurd h List.not_mem_nil) _
    split
    · split
      · split
        · exact keeps_error _
        · rename_i x rest' hshorter hx
          exact hnext (by omega) (hmember rest hrest _ _ hx) fun _ _ => rfl
      · exact keeps_error _
    split
    · split
      · exact keeps_error _
      · rename_i quote rest'' hskip'
        have hrest'' := length_lt_of_skipBlanks hskip'
        split
        · split
          · exact keeps_error _
          · rename_i x rest' hshorter hx
            exact hnext (by omega) (hmember rest'' (by omega) _ _ hx) fun _ _ => rfl
        · exact keeps_error _
    · exact keeps_error _

end

/-- What is read from a text below a length is in range, be it a value, items or members. -/
theorem keeps_of_length_lt (n : Nat) :
    (∀ depth s, s.length < n → Keeps Json.InRange (value depth s))
      ∧ (∀ depth first s, s.length < n → Keeps ItemsInRange (items depth first s))
      ∧ ∀ depth first s, s.length < n → Keeps FieldsInRange (members depth first s) := by
  induction n with
  | zero =>
      exact ⟨fun _ _ h => absurd h (Nat.not_lt_zero _), fun _ _ _ h => absurd h (Nat.not_lt_zero _),
        fun _ _ _ h => absurd h (Nat.not_lt_zero _)⟩
  | succ n ih =>
      obtain ⟨ihvalue, ihitems, ihmembers⟩ := ih
      -- items may begin with a value of their own length, so values come first
      have hvalue : ∀ depth s, s.length < n + 1 → Keeps Json.InRange (value depth s) :=
        fun depth s hs => keeps_value
          (fun depth rest hrest => ihitems depth true rest (by omega))
          (fun depth rest hrest => ihmembers depth true rest (by omega))
      refine ⟨hvalue, fun depth first s hs => ?_, fun depth first s hs => ?_⟩
      · exact keeps_items (fun rest hrest => hvalue depth rest (by omega))
          (fun rest hrest => ihitems depth false rest (by omega))
      · exact keeps_members
          (fun rest hrest => keeps_member fun rest' hrest' => ihvalue depth rest' (by omega))
          (fun rest hrest => ihmembers depth false rest (by omega))

end Parser

/-- **A parsed value has all its numbers in range.** -/
theorem inRange_of_parse {text : String} {x : Json} (h : parse text = .ok x) : x.InRange := by
  unfold parse at h
  split at h
  · exact absurd h (by simp)
  · rename_i y rest hshorter hvalue
    split at h
    · obtain rfl := Except.ok.inj h
      exact (Parser.keeps_of_length_lt _).1 _ _ (Nat.lt_succ_self _) _ _ hvalue
    · exact absurd h (by simp)

end Json

end ModelForge

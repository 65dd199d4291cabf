/-
`AlikeRecords.lean` -- what a record leaves unread.

Of an object a record looks up the keys that it names, and nothing else. So two objects that have
alike values under these keys are read alike: from both comes a value, or from neither. What
counts as alike depends on the key, since the value of a key may be a node that is looked at in
the same way. Here a key comes with that relation (`OwnKey`), and a record with the list of its
keys; `Record.Respects` says that the record makes related values out of alike objects, and has
one rule for each way of making a record.

An array that stands for a record is read by position, and keeps all its items.
-/
import ModelForge.Proofs.KeyedLists
import ModelForge.Proofs.RecordFields
import ModelForge.Proofs.References

set_option autoImplicit false

namespace ModelForge

/-! ## Outcomes of two runs -/

/-- Options are related by equality when they are equal. -/
theorem rel_eq_eq {α : Type} : (Option.Rel (· = ·) : Option α → Option α → Prop) = (· = ·) := by
  funext a b
  apply propext
  constructor
  · intro h
    cases h with
    | some h => rw [h]
    | none => rfl
  · rintro rfl
    cases a with
    | some a => exact .some rfl
    | none => exact .none

/-- Both runs fail, or both give a value and the values are related. -/
inductive SameOutcome {ε α β : Type} (T : α → β → Prop) : Except ε α → Except ε β → Prop where
  | succeed {a : α} {b : β} (h : T a b) : SameOutcome T (.ok a) (.ok b)
  | fail (e e' : ε) : SameOutcome T (.error e) (.error e')

namespace SameOutcome

variable {ε α β γ δ : Type} {T : α → β → Prop} {U : γ → δ → Prop}

/-- Two runs of the same outcome have two related values or two errors. -/
theorem cases_ok {r : Except ε α} {r' : Except ε β} (h : SameOutcome T r r') :
    (∃ a b, r = .ok a ∧ r' = .ok b ∧ T a b) ∨ ∃ e e', r = .error e ∧ r' = .error e' := by
  cases h with
  | succeed h => exact .inl ⟨_, _, rfl, rfl, h⟩
  | fail e e' => exact .inr ⟨e, e', rfl, rfl⟩

theorem refl {T : α → α → Prop} [Std.Refl T] (r : Except ε α) : SameOutcome T r r := by
  cases r with
  | ok a => exact .succeed (Std.Refl.refl a)
  | error e => exact .fail e e

/-- Two runs that both fail have the same outcome, whatever their errors are. -/
theorem of_not_ok {r : Except ε α} {r' : Except ε β} (h : ∀ a, r ≠ .ok a) (h' : ∀ b, r' ≠ .ok b) :
    SameOutcome T r r' := by
  cases r with
  | ok a => exact absurd rfl (h a)
  | error e =>
      cases r' with
      | ok b => exact absurd rfl (h' b)
      | error e' => exact .fail e e'

/-- A function may be applied to both values. -/
theorem map {r : Except ε α} {r' : Except ε β} {f : α → γ} {f' : β → δ} (h : SameOutcome T r r')
    (hf : ∀ a b, T a b → U (f a) (f' b)) : SameOutcome U (r.map f) (r'.map f') := by
  cases h with
  | succeed h => exact .succeed (hf _ _ h)
  | fail e e' => exact .fail e e'

/-- A run may be followed by another that treats related values alike. -/
theorem bind {r : Except ε α} {r' : Except ε β} {f : α → Except ε γ} {f' : β → Except ε δ}
    (h : SameOutcome T r r') (hf : ∀ a b, T a b → SameOutcome U (f a) (f' b)) :
    SameOutcome U (r >>= f) (r' >>= f') := by
  cases h with
  | succeed h => exact hf _ _ h
  | fail e e' => exact .fail e e'

theorem pure {c : γ} {d : δ} (h : U c d) :
    SameOutcome U (Pure.pure c : Except ε γ) (Pure.pure d) :=
  .succeed h

/-- Runs over the items of two lists, as long as none fails. -/
theorem mapM {S : γ → δ → Prop} {f : γ → Except ε α} {f' : δ → Except ε β} {items : List γ}
    {items' : List δ} (hitems : List.Forall₂ S items items')
    (hf : ∀ x x', S x x' → SameOutcome T (f x) (f' x')) :
    SameOutcome (List.Forall₂ T) (items.mapM f) (items'.mapM f') := by
  induction hitems with
  | nil => exact .pure .nil
  | cons hx _ ih =>
      rw [List.mapM_cons, List.mapM_cons]
      exact (hf _ _ hx).bind fun _ _ ha => ih.bind fun _ _ hrest => .pure (.cons ha hrest)

/-- The same, where equal results come from related items. -/
theorem mapM_eq {S : γ → δ → Prop} {f : γ → Except ε α} {f' : δ → Except ε α} {items : List γ}
    {items' : List δ} (hitems : List.Forall₂ S items items')
    (hf : ∀ x x', S x x' → SameOutcome (· = ·) (f x) (f' x')) :
    SameOutcome (· = ·) (items.mapM f) (items'.mapM f') := by
  have h := mapM hitems hf
  rwa [List.forall₂_eq_eq_eq] at h

end SameOutcome

/-! ## Objects and arrays -/

/-- A key that a record names, and the relation of two values of it that are read alike. -/
structure OwnKey where
  name : String
  alike : Json → Json → Prop
  refl : ∀ x, alike x x

/-- A key whose value is taken as it is. -/
def OwnKey.plain (name : String) : OwnKey := ⟨name, (· = ·), fun _ => rfl⟩

/-- Under each of the keys the two objects have alike values, or neither has one. Other keys and
the order of all keys are free. -/
def FieldsAlike (keys : List OwnKey) (fields fields' : List (String × Json)) : Prop :=
  ∀ key ∈ keys, Option.Rel key.alike (fields.lookup key.name) (fields'.lookup key.name)

/-- The items in the places of the keys are alike, and those behind them are the same. -/
inductive ItemsAlike : List OwnKey → List Json → List Json → Prop where
  | ended (keys : List OwnKey) : ItemsAlike keys [] []
  | item {key : OwnKey} {keys : List OwnKey} {x x' : Json} {items items' : List Json}
      (hx : key.alike x x') (hrest : ItemsAlike keys items items') :
      ItemsAlike (key :: keys) (x :: items) (x' :: items')
  | surplus (items : List Json) : ItemsAlike [] items items

/-- Two values that a record with the given keys does not tell apart. -/
inductive RecordAlike (keys : List OwnKey) : Json → Json → Prop where
  | object {fields fields' : List (String × Json)} (h : FieldsAlike keys fields fields') :
      RecordAlike keys (.object fields) (.object fields')
  | array {items items' : List Json} (h : ItemsAlike keys items items') :
      RecordAlike keys (.array items) (.array items')
  | unreadable {x : Json} (hobject : ∀ fields, x ≠ .object fields)
      (harray : ∀ items, x ≠ .array items) :
      RecordAlike keys x x

/-- Two arrays whose items are related one by one. -/
inductive ListAlike (S : Json → Json → Prop) : Json → Json → Prop where
  | array {items items' : List Json} (h : List.Forall₂ S items items') :
      ListAlike S (.array items) (.array items')
  | unreadable {x : Json} (harray : ∀ items, x ≠ .array items) : ListAlike S x x

/-! What is not edited is alike. -/

/-- An object is like itself. -/
theorem FieldsAlike.refl (keys : List OwnKey) (fields : List (String × Json)) :
    FieldsAlike keys fields fields := by
  intro key _
  cases fields.lookup key.name with
  | some x => exact .some (key.refl x)
  | none => exact .none

/-- So is an array. -/
theorem ItemsAlike.refl (keys : List OwnKey) (items : List Json) : ItemsAlike keys items items := by
  induction items generalizing keys with
  | nil => exact .ended keys
  | cons x rest ih =>
      cases keys with
      | nil => exact .surplus _
      | cons key keys => exact .item (key.refl x) (ih keys)

/-- So is any value. -/
theorem RecordAlike.refl (keys : List OwnKey) (x : Json) : RecordAlike keys x x := by
  cases x with
  | object fields => exact .object (.refl keys fields)
  | array items => exact .array (.refl keys items)
  | _ => exact .unreadable (fun _ => Json.noConfusion) fun _ => Json.noConfusion

/-- So is a list of nodes. -/
theorem ListAlike.refl {S : Json → Json → Prop} (hS : ∀ x, S x x) (x : Json) : ListAlike S x x := by
  cases x with
  | array items => exact .array (List.forall₂_same.2 fun item _ => hS item)
  | _ => exact .unreadable fun _ => Json.noConfusion

/-- A key whose value is read as a record with the given keys. -/
def OwnKey.record (name : String) (keys : List OwnKey) : OwnKey :=
  ⟨name, RecordAlike keys, RecordAlike.refl keys⟩

/-- A key whose value is read as a list of nodes. -/
def OwnKey.list (name : String) (S : Json → Json → Prop) (hS : ∀ x, S x x) : OwnKey :=
  ⟨name, ListAlike S, ListAlike.refl hS⟩

/-! ## Edits of objects -/

/-- Where no key stands twice, neither the order of the entries nor those of other keys matter to a
look-up. -/
theorem lookup_eq_of_perm_append {α β : Type} [DecidableEq α] {entries own others : List (α × β)}
    {key : α} (hperm : entries.Perm (own ++ others)) (hdistinct : (entries.map Prod.fst).Nodup)
    (hothers : ∀ entry ∈ others, entry.1 ≠ key) : entries.lookup key = own.lookup key := by
  have hnone : others.lookup key = none := by
    rw [List.lookup_eq_none_iff]
    exact fun entry hentry => bne_iff_ne.2 (hothers entry hentry).symm
  rw [KeyedList.lookup_eq_of_perm hperm hdistinct, List.lookup_append, hnone, Option.or_none]

namespace FieldsAlike

variable {keys : List OwnKey} {fields fields' : List (String × Json)}

/-- Without keys there is nothing to compare. -/
theorem nil : FieldsAlike [] fields fields' := fun _ hkey => absurd hkey List.not_mem_nil

/-- The keys can be compared one after the other. -/
theorem cons {key : OwnKey}
    (hkey : Option.Rel key.alike (fields.lookup key.name) (fields'.lookup key.name))
    (h : FieldsAlike keys fields fields') : FieldsAlike (key :: keys) fields fields' :=
  List.forall_mem_cons.2 ⟨hkey, h⟩

end FieldsAlike

/-- Fields with the same keys one by one, and with values that the record does not tell apart. -/
def EntriesAlike (keys : List OwnKey) : List (String × Json) → List (String × Json) → Prop :=
  List.Forall₂ fun entry entry' => entry.1 = entry'.1
    ∧ ∀ key ∈ keys, key.name = entry.1 → key.alike entry.2 entry'.2

namespace EntriesAlike

variable {keys : List OwnKey} {entries entries' : List (String × Json)}

theorem nil : EntriesAlike keys [] [] := List.Forall₂.nil

/-- A field that is left as it is. -/
theorem kept (entry : String × Json) (h : EntriesAlike keys entries entries') :
    EntriesAlike keys (entry :: entries) (entry :: entries') :=
  .cons ⟨rfl, fun key _ _ => key.refl entry.2⟩ h

/-- A field whose value is exchanged for an alike one. -/
theorem exchanged (key : OwnKey) {x x' : Json} (hkeys : (keys.map OwnKey.name).Nodup)
    (hkey : key ∈ keys) (hx : key.alike x x') (h : EntriesAlike keys entries entries') :
    EntriesAlike keys ((key.name, x) :: entries) ((key.name, x') :: entries') := by
  refine .cons ⟨rfl, fun other hother hname => ?_⟩ h
  obtain rfl := List.inj_on_of_nodup_map hkeys hother hkey hname
  exact hx

/-- Both sides have the same keys in the same order. -/
theorem map_fst_eq (h : EntriesAlike keys entries entries') :
    entries.map Prod.fst = entries'.map Prod.fst := by
  induction h with
  | nil => rfl
  | cons hentry _ ih => rw [List.map_cons, List.map_cons, ih, hentry.1]

end EntriesAlike

/-- **Edits of an object.** An object with distinct keys is split into fields whose values are
exchanged for alike ones and fields that no key of the record names. The latter may be replaced by
any others, and all may be put into another order. -/
theorem FieldsAlike.of_edit {keys : List OwnKey}
    {fields fields' own own' foreign foreign' : List (String × Json)}
    (hfields : fields.Perm (own ++ foreign)) (hfields' : fields'.Perm (own' ++ foreign'))
    (hdistinct : (fields.map Prod.fst).Nodup) (hdistinct' : (fields'.map Prod.fst).Nodup)
    (hown : EntriesAlike keys own own')
    (hforeign : ∀ key ∈ keys, ∀ entry ∈ foreign, entry.1 ≠ key.name)
    (hforeign' : ∀ key ∈ keys, ∀ entry ∈ foreign', entry.1 ≠ key.name) :
    FieldsAlike keys fields fields' := by
  intro key hkey
  rw [lookup_eq_of_perm_append hfields hdistinct (hforeign key hkey),
    lookup_eq_of_perm_append hfields' hdistinct' (hforeign' key hkey)]
  clear hfields hfields'
  induction hown with
  | nil => exact .none
  | cons hentry _ ih =>
      rw [lookup_cons_eq_ite, lookup_cons_eq_ite, ← hentry.1]
      split
      · rename_i hname
        exact .some (hentry.2 key hkey hname)
      · exact ih

/-- Behind the last key nothing may differ. -/
theorem ItemsAlike.eq_of_nil {items items' : List Json} (h : ItemsAlike [] items items') :
    items = items' := by
  cases h with
  | ended => rfl
  | surplus => rfl

/-- Of two alike values both are null, or neither is. -/
theorem RecordAlike.eq_null_iff {keys : List OwnKey} {x x' : Json} (h : RecordAlike keys x x') :
    x = .null ↔ x' = .null := by
  cases h with
  | object h => exact ⟨Json.noConfusion, Json.noConfusion⟩
  | array h => exact ⟨Json.noConfusion, Json.noConfusion⟩
  | unreadable => exact Iff.rfl

/-! ## Decoders -/

/-- Out of related values the decoder makes related ones, or it fails on both. -/
def Decoder.Respects {α : Type} (decoder : Decoder α) (S : Json → Json → Prop) (T : α → α → Prop) :
    Prop :=
  ∀ x x', S x x' → SameOutcome T (decoder x) (decoder x')

namespace Decoder

variable {α : Type} {S : Json → Json → Prop} {T : α → α → Prop}

/-- What is read from a value depends on the value alone. -/
theorem respects_eq (decoder : Decoder α) : decoder.Respects (· = ·) (· = ·) := by
  rintro x _ rfl
  exact .refl _

theorem respects_any : any.Respects S S := fun _ _ h => .succeed h

/-- Items that are read alike make lists that are read alike. -/
theorem Respects.list {item : Decoder α} (h : item.Respects S T) :
    (list item).Respects (ListAlike S) (List.Forall₂ T) := by
  intro x x' hx
  cases hx with
  | array hitems => exact .mapM hitems h
  | unreadable harray =>
      cases x with
      | array items => exact absurd rfl (harray items)
      | _ => exact .fail _ _

/-- A value that may be left out is read alike if absence can be told on both sides. -/
theorem Respects.nullable {value : Decoder α} (h : value.Respects S T)
    (hnull : ∀ x x', S x x' → (x = .null ↔ x' = .null)) :
    value.nullable.Respects S (Option.Rel T) := by
  have hpresent : ∀ x, x ≠ .null → value.nullable x = (value x).map some := by
    intro x hx
    cases x with
    | null => exact absurd rfl hx
    | _ => rfl
  intro x x' hx
  by_cases hxnull : x = .null
  · rw [hxnull, (hnull x x' hx).1 hxnull]
    exact .succeed .none
  · rw [hpresent x hxnull, hpresent x' fun hx' => hxnull ((hnull x x' hx).2 hx')]
    exact (h x x' hx).map fun _ _ => .some

end Decoder

/-! ## Records -/

/-- The value that the fields of an object give, if they give one. -/
def Collected.value? {α : Type} : Collected α → Option α
  | .complete a => some a
  | _ => none

/-- The value that the front of an array gives, if it gives one, and the rest of the array. -/
def Positional.value? {α : Type} : Positional α → Option (α × List Json)
  | .complete a rest => some (a, rest)
  | _ => none

/-- Out of objects with alike values under the keys the record makes related values, or no value of
either. Out of arrays it does the same, and leaves alike items for the keys behind its own. -/
structure Record.Respects {α : Type} (record : Record α) (keys : List OwnKey) (T : α → α → Prop) :
    Prop where
  ofFields : ∀ fields fields', FieldsAlike keys fields fields' →
    Option.Rel T (record.ofFields fields).value? (record.ofFields fields').value?
  ofItems : ∀ more items items', ItemsAlike (keys ++ more) items items' →
    Option.Rel (fun r r' => T r.1 r'.1 ∧ ItemsAlike more r.2 r'.2)
      (record.ofItems items).value? (record.ofItems items').value?

namespace Record

variable {α β : Type} {keys more : List OwnKey} {T : α → α → Prop} {U : β → β → Prop}

/-- Two groups of fields give a value exactly if both of them do. -/
theorem value?_collected_ap (f : Collected (α → β)) (x : Collected α) :
    (f.ap x).value? = f.value?.bind fun g => x.value?.map g := by
  cases f with
  | complete g => cases x <;> rfl
  | missing field => cases x <;> rfl
  | wrong field m =>
      cases x with
      | wrong field' m' =>
          rw [Collected.ap]
          split <;> rfl
      | _ => rfl

/-- In an array the second group reads what the first has left. -/
theorem value?_ofItems_ap (f : Record (α → β)) (x : Record α) (items : List Json) :
    ((f.ap x).ofItems items).value? = (f.ofItems items).value?.bind fun r =>
      (x.ofItems r.2).value?.map fun s => (r.1 s.1, s.2) := by
  unfold ap
  dsimp only
  cases f.ofItems items with
  | complete g rest =>
      show _ = (x.ofItems rest).value?.map fun s => (g s.1, s.2)
      dsimp only
      cases x.ofItems rest <;> rfl
  | short index => rfl
  | wrong m => rfl

/-- Two groups of fields, the keys of the first in front of those of the second. -/
theorem Respects.seq {f : Record (α → β)} {x : Record α}
    (hf : f.Respects keys fun g g' => ∀ a a', T a a' → U (g a) (g' a')) (hx : x.Respects more T) :
    (f <*> x).Respects (keys ++ more) U where
  ofFields fields fields' h := by
    obtain ⟨hkeys, hmore⟩ := List.forall_mem_append.1 h
    show Option.Rel U ((f.ofFields fields).ap (x.ofFields fields)).value?
      ((f.ofFields fields').ap (x.ofFields fields')).value?
    rw [value?_collected_ap, value?_collected_ap]
    rcases rel_cases (hf.ofFields fields fields' hkeys) with ⟨hg, hg'⟩ | ⟨g, g', hg, hg', hrel⟩
    · rw [hg, hg']
      exact .none
    · rw [hg, hg', Option.bind_some, Option.bind_some]
      rcases rel_cases (hx.ofFields fields fields' hmore) with ⟨ha, ha'⟩ | ⟨a, a', ha, ha', hrel'⟩
      · rw [ha, ha']
        exact .none
      · rw [ha, ha']
        exact .some (hrel a a' hrel')
  ofItems rest items items' h := by
    rw [List.append_assoc] at h
    show Option.Rel _ ((f.ap x).ofItems items).value? ((f.ap x).ofItems items').value?
    rw [value?_ofItems_ap, value?_ofItems_ap]
    rcases rel_cases (hf.ofItems _ items items' h) with ⟨hg, hg'⟩ | ⟨r, r', hg, hg', hrel, hleft⟩
    · rw [hg, hg']
      exact .none
    · rw [hg, hg', Option.bind_some, Option.bind_some]
      rcases rel_cases (hx.ofItems rest r.2 r'.2 hleft)
        with ⟨ha, ha'⟩ | ⟨s, s', ha, ha', hrel', hlast⟩
      · rw [ha, ha']
        exact .none
      · rw [ha, ha']
        exact .some ⟨hrel _ _ hrel', hlast⟩

/-- A function of a group of fields. -/
theorem Respects.map {f : α → β} {x : Record α} (hf : ∀ a a', T a a' → U (f a) (f a'))
    (hx : x.Respects keys T) : (f <$> x).Respects keys U := by
  have hpure : (pure f : Record (α → β)).Respects [] fun g g' => ∀ a a', T a a' → U (g a) (g' a') :=
    ⟨fun _ _ _ => .some hf, fun _ _ _ h => .some ⟨hf, h⟩⟩
  exact hpure.seq hx

section

variable {S : Json → Json → Prop} {hS : ∀ x, S x x} {decoder : Decoder α} (name : String)

/-- A field that is read alike is collected alike. -/
theorem rel_collect {r r' : Except Mismatch α} (h : SameOutcome T r r') :
    Option.Rel T (collect name r).value? (collect name r').value? := by
  cases h with
  | succeed h => exact .some h
  | fail m m' => exact .none

/-- The item in the place of a key; `absent` is what an array gives that is at its end. -/
theorem rel_first {key : OwnKey} {absent : Positional α} {items items' : List Json}
    (h : decoder.Respects key.alike T)
    (habsent : Option.Rel (fun r r' => T r.1 r'.1 ∧ ItemsAlike more r.2 r'.2) absent.value?
      absent.value?)
    (hitems : ItemsAlike (key :: more) items items') :
    Option.Rel (fun r r' => T r.1 r'.1 ∧ ItemsAlike more r.2 r'.2)
      (first decoder absent items).value? (first decoder absent items').value? := by
  cases hitems with
  | ended => exact habsent
  | item hx hrest =>
      rw [first, first]
      rcases (h _ _ hx).cases_ok with ⟨a, a', ha, ha', hrel⟩ | ⟨m, m', ha, ha'⟩
      · rw [ha, ha']
        exact .some ⟨hrel, hrest⟩
      · rw [ha, ha']
        exact .none

/-- **A required field looks at the value of its key**, and fails on both objects where there is
none. -/
theorem respects_required (h : decoder.Respects S T) :
    (required name decoder).Respects [⟨name, S, hS⟩] T where
  ofFields fields fields' hfields := by
    unfold required
    rcases rel_cases (hfields ⟨name, S, hS⟩ List.mem_cons_self)
      with ⟨hx, hx'⟩ | ⟨x, x', hx, hx', hrel⟩
    · simp only [hx, hx']
      exact .none
    · simp only [hx, hx']
      exact rel_collect name (h x x' hrel)
  ofItems more items items' hitems := rel_first h .none hitems

/-- An optional field looks at the value of its key, if there is one. -/
theorem respects_optional (h : decoder.Respects S T)
    (hnull : ∀ x x', S x x' → (x = .null ↔ x' = .null)) :
    (optional name decoder).Respects [⟨name, S, hS⟩] (Option.Rel T) where
  ofFields fields fields' hfields := by
    unfold optional
    rcases rel_cases (hfields ⟨name, S, hS⟩ List.mem_cons_self)
      with ⟨hx, hx'⟩ | ⟨x, x', hx, hx', hrel⟩
    · simp only [hx, hx']
      exact .some .none
    · simp only [hx, hx']
      exact rel_collect name (h.nullable hnull x x' hrel)
  ofItems more items items' hitems := rel_first (h.nullable hnull) .none hitems

/-- A field with a default does so too, and the default is like itself. -/
theorem respects_withDefault {default : α} (hdefault : T default default)
    (h : decoder.Respects S T) :
    (withDefault name default decoder).Respects [⟨name, S, hS⟩] T where
  ofFields fields fields' hfields := by
    unfold withDefault
    rcases rel_cases (hfields ⟨name, S, hS⟩ List.mem_cons_self)
      with ⟨hx, hx'⟩ | ⟨x, x', hx, hx', hrel⟩
    · simp only [hx, hx']
      exact .some hdefault
    · simp only [hx, hx']
      exact rel_collect name (h x x' hrel)
  ofItems more items items' hitems := rel_first h (.some ⟨hdefault, .ended more⟩) hitems

/-! A key whose value is taken as it is may be read in any way. -/

theorem respects_plain_required (decoder : Decoder α) :
    (required name decoder).Respects [.plain name] (· = ·) :=
  respects_required name decoder.respects_eq

theorem respects_plain_optional (decoder : Decoder α) :
    (optional name decoder).Respects [.plain name] (· = ·) := by
  have h : (optional name decoder).Respects [.plain name] (Option.Rel (· = ·)) :=
    respects_optional name decoder.respects_eq fun x x' hx => by rw [hx]
  rwa [rel_eq_eq] at h

theorem respects_plain_withDefault (default : α) (decoder : Decoder α) :
    (withDefault name default decoder).Respects [.plain name] (· = ·) :=
  respects_withDefault name rfl decoder.respects_eq

end

end Record

/-- A record is read alike from alike values. -/
theorem Decoder.respects_record {α : Type} {record : Record α} {keys : List OwnKey}
    {T : α → α → Prop} (name : String) (h : record.Respects keys T) :
    (Decoder.record name record).Respects (RecordAlike keys) T := by
  intro x x' hx
  cases hx with
  | object hfields =>
      have hrel := h.ofFields _ _ hfields
      unfold Decoder.record
      dsimp only
      generalize record.ofFields _ = read at hrel ⊢
      generalize record.ofFields _ = read' at hrel ⊢
      -- the reasons for which one object fails may be others than for the second
      cases read with
      | complete a =>
          cases read' with
          | complete a' =>
              cases hrel with
              | some ha => exact .succeed ha
          | _ => cases hrel
      | _ =>
          cases read' with
          | complete a' => cases hrel
          | _ => exact .fail _ _
  | array hitems =>
      rw [← List.append_nil keys] at hitems
      have hrel := h.ofItems [] _ _ hitems
      unfold Decoder.record
      dsimp only
      generalize record.ofItems _ = read at hrel ⊢
      generalize record.ofItems _ = read' at hrel ⊢
      cases read with
      | complete a rest =>
          cases read' with
          | complete a' rest' =>
              cases hrel with
              | some hvalue =>
                  obtain ⟨ha, hrest⟩ := hvalue
                  obtain rfl : rest = rest' := hrest.eq_of_nil
                  cases rest with
                  | nil => exact .succeed ha
                  | cons => exact .fail _ _
          | _ => cases hrel
      | _ =>
          cases read' with
          | complete a' rest' => cases hrel
          | _ => exact .fail _ _
  | unreadable hobject harray =>
      cases x with
      | object fields => exact absurd rfl (hobject fields)
      | array items => exact absurd rfl (harray items)
      | _ => exact .fail _ _

end ModelForge

/-
`KeyedLists.lean` -- what is in a keyed list.

A keyed list is put together by insertions from left to right, and every question about it is one
about the entries that were inserted: what is in it was among them
(`KeyedList.mem_of_mem_ofList`), the value of a key is the last one that was given for it
(`KeyedList.lookup_ofList`), and entries whose keys ascend are left as they are
(`KeyedList.ofList_of_ascending`). Each proof goes along the entries, with a list that holds what
was inserted before. The keys of a keyed list ascend, so that it is determined by the values of
its keys (`KeyedList.ext_of_ascending`).
-/
import Mathlib.Data.List.Sort
import ModelForge.Proofs.Resolution
import ModelForge.Text.KeyOrder

set_option autoImplicit false

namespace ModelForge.KeyedList

variable {α : Type}

/-! ## What is in the list -/

theorem mem_insert {key : String} {value : α} {entries : KeyedList α} {entry : String × α}
    (h : entry ∈ insert key value entries) : entry = (key, value) ∨ entry ∈ entries := by
  induction entries with
  | nil => exact .inl (List.mem_singleton.1 h)
  | cons first rest ih =>
      rw [insert] at h
      split at h
      · exact List.mem_cons.1 h
      · split at h
        · exact (List.mem_cons.1 h).imp_right (List.mem_cons_of_mem _)
        · rcases List.mem_cons.1 h with rfl | h
          · exact .inr List.mem_cons_self
          · exact (ih h).imp_right (List.mem_cons_of_mem _)

/-- Nothing is in a keyed list but what was put into it. -/
theorem mem_of_mem_ofList {entries : List (String × α)} {entry : String × α}
    (h : entry ∈ ofList entries) : entry ∈ entries := by
  have hfold : ∀ sorted : KeyedList α,
      entry ∈ entries.foldl (fun sorted entry => insert entry.1 entry.2 sorted) sorted →
        entry ∈ sorted ∨ entry ∈ entries := by
    clear h
    induction entries with
    | nil => exact fun sorted h => .inl h
    | cons first rest ih =>
        intro sorted h
        rcases ih _ h with h | h
        · rcases mem_insert h with rfl | h
          · exact .inr List.mem_cons_self
          · exact .inl h
        · exact .inr (List.mem_cons_of_mem _ h)
  exact (hfold [] h).resolve_left List.not_mem_nil

/-! ## The value of a key -/

/-- What is looked up among entries is the last one of its key. -/
theorem lookup_ofList (entries : List (String × α)) (key : String) :
    (ofList entries).lookup key = entries.reverse.lookup key := by
  have hfold : ∀ sorted : KeyedList α,
      (entries.foldl (fun sorted entry => insert entry.1 entry.2 sorted) sorted).lookup key
        = (entries.reverse.lookup key).or (sorted.lookup key) := by
    induction entries with
    | nil => exact fun sorted => rfl
    | cons entry rest ih =>
        intro sorted
        rw [List.foldl_cons, ih, lookup_insert, List.reverse_cons,
          List.lookup_append, Option.or_assoc, lookup_cons_eq_ite, List.lookup_nil]
        split <;> rfl
  rw [ofList, hfold, List.lookup_nil, Option.or_none]

/-! ## Ascending keys -/

/-- A key behind all others goes to the end. -/
theorem insert_of_forall_lt {key : String} {value : α} {entries : KeyedList α}
    (h : ∀ entry ∈ entries, entry.1 < key) :
    insert key value entries = entries ++ [(key, value)] := by
  induction entries with
  | nil => rfl
  | cons entry rest ih =>
      have hlt : entry.1 < key := h entry List.mem_cons_self
      have hne : key ≠ entry.1 := fun heq => String.lt_irrefl key (heq ▸ hlt)
      rw [insert, if_neg (String.lt_asymm hlt), if_neg hne,
        ih fun other hmem => h other (List.mem_cons_of_mem _ hmem)]
      rfl

/-- A list whose keys ascend is in its order already. -/
theorem ofList_of_ascending {entries : List (String × α)}
    (h : (entries.map Prod.fst).Pairwise (· < ·)) : ofList entries = entries := by
  -- what was inserted before stands in front, below everything that is still to come
  have hfold : ∀ before : List (String × α), (∀ e ∈ before, ∀ f ∈ entries, e.1 < f.1) →
      entries.foldl (fun sorted entry => insert entry.1 entry.2 sorted) before
        = before ++ entries := by
    induction entries with
    | nil => exact fun before _ => (List.append_nil before).symm
    | cons entry rest ih =>
        intro before hbefore
        rw [List.map_cons, List.pairwise_cons] at h
        rw [List.foldl_cons,
          insert_of_forall_lt fun e he => hbefore e he entry List.mem_cons_self, ih h.2]
        · rw [List.append_assoc]
          rfl
        · intro e he f hf
          rcases List.mem_append.1 he with he | he
          · exact hbefore e he f (List.mem_cons_of_mem _ hf)
          · rw [List.mem_singleton.1 he]
            exact h.1 f.1 (List.mem_map_of_mem hf)
  exact hfold [] fun e he => absurd he List.not_mem_nil

/-- An insertion keeps the keys in order. -/
theorem ascending_insert (key : String) (value : α) {entries : KeyedList α}
    (h : (entries.map Prod.fst).Pairwise (· < ·)) :
    ((insert key value entries).map Prod.fst).Pairwise (· < ·) := by
  induction entries with
  | nil => exact List.pairwise_singleton _ _
  | cons first rest ih =>
      rw [List.map_cons, List.pairwise_cons, List.forall_mem_map] at h
      obtain ⟨hfirst, hrest⟩ := h
      rw [insert]
      split
      · rename_i hlt
        rw [List.map_cons, List.map_cons, List.pairwise_cons, List.pairwise_cons,
          List.forall_mem_cons, List.forall_mem_map, List.forall_mem_map]
        exact ⟨⟨hlt, fun entry hentry => String.lt_trans hlt (hfirst entry hentry)⟩, hfirst, hrest⟩
      · rename_i hnot
        split
        · rename_i hkey
          rw [List.map_cons, List.pairwise_cons, List.forall_mem_map, hkey]
          exact ⟨hfirst, hrest⟩
        · rename_i hne
          -- the key goes behind the first one
          have hlt : first.1 < key :=
            Decidable.byContradiction fun h =>
              hne (String.le_antisymm (String.not_lt.1 h) (String.not_lt.1 hnot))
          rw [List.map_cons, List.pairwise_cons, List.forall_mem_map]
          refine ⟨fun entry hentry => ?_, ih hrest⟩
          rcases mem_insert hentry with rfl | hentry
          · exact hlt
          · exact hfirst entry hentry

theorem ascending_ofList (entries : List (String × α)) :
    ((ofList entries).map Prod.fst).Pairwise (· < ·) := by
  have hfold : ∀ sorted : KeyedList α, (sorted.map Prod.fst).Pairwise (· < ·) →
      ((entries.foldl (fun sorted entry => insert entry.1 entry.2 sorted) sorted).map
        Prod.fst).Pairwise (· < ·) := by
    induction entries with
    | nil => exact fun sorted h => h
    | cons entry rest ih => exact fun sorted h => ih _ (ascending_insert entry.1 entry.2 h)
  exact hfold [] List.Pairwise.nil

theorem nodup_of_ascending {entries : KeyedList α} (h : (entries.map Prod.fst).Pairwise (· < ·)) :
    (entries.map Prod.fst).Nodup := by
  refine List.nodup_iff_pairwise_ne.2 (h.imp fun hlt heq => ?_)
  rw [heq] at hlt
  exact String.lt_irrefl _ hlt

/-- Lists whose keys ascend are the same if they have the same values for all keys. -/
theorem ext_of_ascending {entries entries' : KeyedList α}
    (h : (entries.map Prod.fst).Pairwise (· < ·)) (h' : (entries'.map Prod.fst).Pairwise (· < ·))
    (hlookup : ∀ key, entries.lookup key = entries'.lookup key) : entries = entries' := by
  have hmem : ∀ entry, entry ∈ entries ↔ entry ∈ entries' := fun entry => by
    constructor
    · intro hentry
      exact mem_of_lookup ((hlookup _).symm.trans (lookup_of_mem (nodup_of_ascending h) hentry))
    · intro hentry
      exact mem_of_lookup ((hlookup _).trans (lookup_of_mem (nodup_of_ascending h') hentry))
  rw [List.pairwise_map] at h h'
  have : Std.Irrefl fun e f : String × α => e.1 < f.1 := ⟨fun e => String.lt_irrefl e.1⟩
  have : Std.Antisymm fun e f : String × α => e.1 < f.1 :=
    ⟨fun e f hlt hback => absurd hback (String.lt_asymm hlt)⟩
  exact h.eq_of_mem_iff h' hmem

/-- Where no key stands twice, the order of the entries does not matter to a look-up. -/
theorem lookup_eq_of_perm {α β : Type} [DecidableEq α] {entries entries' : List (α × β)}
    (hperm : entries.Perm entries') (hdistinct : (entries.map Prod.fst).Nodup) (key : α) :
    entries.lookup key = entries'.lookup key := by
  have hdistinct' : (entries'.map Prod.fst).Nodup := (hperm.map Prod.fst).nodup_iff.1 hdistinct
  ext value
  constructor
  · exact fun h => lookup_of_mem hdistinct' (hperm.mem_iff.1 (mem_of_lookup h))
  · exact fun h => lookup_of_mem hdistinct (hperm.mem_iff.2 (mem_of_lookup h))

/-- Where no key is given twice, nothing is lost: the entries are put into the order of their
keys. -/
theorem perm_ofList {entries : List (String × α)} (h : (entries.map Prod.fst).Nodup) :
    (ofList entries).Perm entries := by
  have hsorted : ((ofList entries).map Prod.fst).Nodup :=
    nodup_of_ascending (ascending_ofList entries)
  have hlookup : ∀ key, (ofList entries).lookup key = entries.lookup key := fun key => by
    rw [lookup_ofList, ← lookup_eq_of_perm entries.reverse_perm.symm h]
  refine (List.perm_ext_iff_of_nodup (.of_map _ hsorted) (.of_map _ h)).2 fun entry => ?_
  constructor
  · exact fun hentry => mem_of_lookup ((hlookup _).symm.trans (lookup_of_mem hsorted hentry))
  · exact fun hentry => mem_of_lookup ((hlookup _).trans (lookup_of_mem h hentry))

end ModelForge.KeyedList

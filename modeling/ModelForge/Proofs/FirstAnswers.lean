/-
`FirstAnswers.lean` -- a cache that is asked for many names.

Every request brings its own reserved words. A cache keeps what it has made of a name at the first
request, so later words do not matter to that name. All that happens is in two lemmas on one
request: what is remembered behind it (`NameCache.find?_member`) and under which names
(`NameCache.keys_member`). Behind many requests the cache then remembers for each name what the
first request has made of it (`NameCache.find?_after`). It has answered what it remembers in the
end (`NameCache.map_some_answers`), for nothing is forgotten.
-/
import Mathlib.Data.Finset.Card
import ModelForge.Names.Cache
import ModelForge.Proofs.Resolution

set_option autoImplicit false

namespace ModelForge

/-! ## Requests -/

/-- A name to be spelled, and the words that are reserved when it is asked for. -/
structure NameRequest where
  raw : String
  reserved : WordSet

namespace NameRequest

/-- The name spelled without a cache. -/
def spelled (request : NameRequest) : String := memberName request.reserved request.raw

/-- The first request for a name. -/
def first? (requests : List NameRequest) (raw : String) : Option NameRequest :=
  requests.find? fun request => request.raw = raw

theorem first?_cons (request : NameRequest) (rest : List NameRequest) (raw : String) :
    first? (request :: rest) raw = if request.raw = raw then some request else first? rest raw := by
  rw [first?, List.find?_cons]
  by_cases h : request.raw = raw
  · rw [if_pos h, decide_eq_true h]
  · rw [if_neg h, decide_eq_false h, first?]

end NameRequest

open NameRequest

namespace NameCache

/-- The cache behind a list of requests. -/
def after (cache : NameCache) (requests : List NameRequest) : NameCache :=
  requests.foldl (fun cache request => (cache.member request.reserved request.raw).2) cache

/-- The answers to a list of requests. -/
def answers (cache : NameCache) : List NameRequest → List String
  | [] => []
  | request :: rest =>
      let (name, next) := cache.member request.reserved request.raw
      name :: next.answers rest

/-- The names that something is remembered for. -/
def keys (cache : NameCache) : List String := cache.entries.map Prod.fst

/-! ## One request -/

section

variable (cache : NameCache) (reserved : WordSet) (raw : String)

/-- A name is answered from the cache, and is spelled where the cache has none. -/
theorem fst_member_eq_getD :
    (cache.member reserved raw).1 = (cache.find? raw).getD (memberName reserved raw) := by
  unfold member
  cases cache.find? raw with
  | none => rfl
  | some name => rfl

/-- A request adds what it makes of its name, unless the name is known. -/
theorem find?_member (other : String) :
    (cache.member reserved raw).2.find? other
      = (cache.find? other).or (if raw = other then some (memberName reserved raw) else none) := by
  unfold member
  by_cases hsame : raw = other
  · subst hsame
    rw [if_pos rfl]
    cases hfind : cache.find? raw with
    | none =>
        dsimp only [find?]
        rw [lookup_cons_eq_ite, if_pos rfl, Option.none_or]
    | some name => exact hfind
  · rw [if_neg hsame, Option.or_none]
    cases cache.find? raw with
    | none =>
        dsimp only [find?]
        rw [lookup_cons_eq_ite, if_neg (Ne.symm hsame)]
    | some name => rfl

/-- What is answered is remembered. -/
theorem find?_member_self :
    (cache.member reserved raw).2.find? raw = some (cache.member reserved raw).1 := by
  rw [find?_member, if_pos rfl, fst_member_eq_getD]
  cases cache.find? raw with
  | none => rfl
  | some name => rfl

/-- Only the name that was asked for is added. -/
theorem keys_member : (cache.member reserved raw).2.keys = cache.keys.insert raw := by
  unfold member
  cases hfind : cache.find? raw with
  | none => exact (List.insert_of_not_mem (lookup_eq_none_iff_not_mem.1 hfind)).symm
  | some name =>
      have hmem : raw ∈ cache.keys := by
        by_contra hnot
        rw [find?, lookup_eq_none_iff_not_mem.2 hnot] at hfind
        cases hfind
      exact (List.insert_of_mem hmem).symm

end

/-- To ask for a remembered name again yields it, and changes nothing. -/
theorem member_of_find?_eq_some {cache : NameCache} {raw name : String}
    (h : cache.find? raw = some name) (reserved : WordSet) :
    cache.member reserved raw = (name, cache) := by
  rw [member, h]

/-! ## Many requests -/

theorem find?_empty (raw : String) : empty.find? raw = none := rfl

theorem after_cons (cache : NameCache) (request : NameRequest) (rest : List NameRequest) :
    cache.after (request :: rest) = (cache.member request.reserved request.raw).2.after rest := rfl

/-- Requests in a row are made one after the other. -/
theorem after_append (cache : NameCache) (requests more : List NameRequest) :
    cache.after (requests ++ more) = (cache.after requests).after more :=
  List.foldl_append

/-- **For every name the first request decides**, unless something was remembered before. -/
theorem find?_after (cache : NameCache) (requests : List NameRequest) (raw : String) :
    (cache.after requests).find? raw
      = (cache.find? raw).or ((first? requests raw).map spelled) := by
  induction requests generalizing cache with
  | nil => exact (Option.or_none).symm
  | cons request rest ih =>
      rw [after_cons, ih, find?_member, Option.or_assoc, first?_cons]
      by_cases hraw : request.raw = raw
      · rw [if_pos hraw, if_pos hraw, Option.some_or]
        rfl
      · rw [if_neg hraw, if_neg hraw, Option.none_or]

/-- What is answered is what is remembered in the end. -/
theorem map_some_answers (cache : NameCache) (requests : List NameRequest) :
    (cache.answers requests).map some
      = requests.map fun request => (cache.after requests).find? request.raw := by
  induction requests generalizing cache with
  | nil => rfl
  | cons request rest ih =>
      have hkept : ((cache.member request.reserved request.raw).2.after rest).find? request.raw
          = some (cache.member request.reserved request.raw).1 := by
        rw [find?_after, find?_member_self, Option.some_or]
      exact congrArg₂ List.cons hkept.symm (ih _)

/-- No name is remembered twice. -/
theorem nodup_keys_after {cache : NameCache} (h : cache.keys.Nodup) (requests : List NameRequest) :
    (cache.after requests).keys.Nodup := by
  induction requests generalizing cache with
  | nil => exact h
  | cons request rest ih =>
      refine ih ?_
      rw [keys_member]
      exact h.insert

/-- **Remembered are the names from before and those that were asked for.** -/
theorem mem_keys_after {cache : NameCache} {requests : List NameRequest} {raw : String} :
    raw ∈ (cache.after requests).keys ↔ raw ∈ cache.keys ∨ raw ∈ requests.map NameRequest.raw := by
  induction requests generalizing cache with
  | nil => simp [after]
  | cons request rest ih =>
      rw [after_cons, ih, keys_member, List.mem_insert_iff, List.map_cons, List.mem_cons]
      tauto

/-- A cache that starts empty holds one entry for every name that was asked for. -/
theorem size_after (requests : List NameRequest) :
    (empty.after requests).size = (requests.map NameRequest.raw).toFinset.card := by
  have hkeys : (empty.after requests).keys.toFinset = (requests.map NameRequest.raw).toFinset := by
    ext raw
    rw [List.mem_toFinset, mem_keys_after, List.mem_toFinset]
    exact or_iff_right List.not_mem_nil
  have hempty : empty.keys.Nodup := List.nodup_nil
  rw [← hkeys, List.toFinset_card_of_nodup (nodup_keys_after hempty requests),
    keys, List.length_map, size]

/-! ## Words that never change -/

/-- A request changes no answer, not even its own. -/
theorem naming_member (cache : NameCache) (reserved : WordSet) (raw : String) :
    (cache.member reserved raw).2.naming reserved = cache.naming reserved := by
  funext other
  rw [naming, naming, fst_member_eq_getD, fst_member_eq_getD, find?_member]
  cases cache.find? other with
  | some name => rfl
  | none =>
      rw [Option.none_or]
      split
      · rename_i hsame
        rw [hsame]
        rfl
      · rfl

/-- With words that never change, requests are answered as the cache spells names from the start. -/
theorem answers_eq_map_naming (cache : NameCache) (reserved : WordSet) (raws : List String) :
    cache.answers (raws.map fun raw => ⟨raw, reserved⟩) = raws.map (cache.naming reserved) := by
  induction raws generalizing cache with
  | nil => rfl
  | cons raw rest ih =>
      rw [List.map_cons, List.map_cons, answers]
      dsimp only
      rw [ih, naming_member]
      rfl

/-- Nor do such requests change how names are spelled behind them. -/
theorem naming_after (cache : NameCache) (reserved : WordSet) (raws : List String) :
    (cache.after (raws.map fun raw => ⟨raw, reserved⟩)).naming reserved
      = cache.naming reserved := by
  induction raws generalizing cache with
  | nil => rfl
  | cons raw rest ih => rw [List.map_cons, after_cons, ih, naming_member]

/-- A cache that remembers nothing spells names as they are spelled without one. -/
theorem naming_empty (reserved : WordSet) : empty.naming reserved = memberName reserved := rfl

end NameCache

/-- What a cache that starts empty makes of a list of requests. -/
structure AnsweredFirst (requests : List NameRequest) : Prop where
  /-- Each request is answered what the words of the first request for its name give. -/
  answered : (NameCache.empty.answers requests).map some
    = requests.map fun request => (first? requests request.raw).map spelled
  /-- As many names are remembered as there are different ones among the requests. -/
  counted : (NameCache.empty.after requests).size = (requests.map NameRequest.raw).toFinset.card
  /-- A name that was asked for keeps its answer, whatever is asked for later and with whatever
  words. To ask for it again adds nothing. -/
  lasting : ∀ request ∈ requests, ∃ first, first? requests request.raw = some first
    ∧ ∀ (more : List NameRequest) (reserved : WordSet),
      (NameCache.empty.after (requests ++ more)).member reserved request.raw
        = (first.spelled, NameCache.empty.after (requests ++ more))

/-- **The first answer stays.** -/
theorem answeredFirst (requests : List NameRequest) : AnsweredFirst requests := by
  refine ⟨?_, NameCache.size_after requests, fun request hrequest => ?_⟩
  · rw [NameCache.map_some_answers]
    refine List.map_congr_left fun request _ => ?_
    rw [NameCache.find?_after, NameCache.find?_empty, Option.none_or]
  · have hfirst : (first? requests request.raw).isSome :=
      List.find?_isSome.2 ⟨request, hrequest, decide_eq_true rfl⟩
    obtain ⟨first, hfirst⟩ := Option.isSome_iff_exists.1 hfirst
    refine ⟨first, hfirst, fun more reserved => NameCache.member_of_find?_eq_some ?_ reserved⟩
    rw [NameCache.after_append, NameCache.find?_after, NameCache.find?_after,
      NameCache.find?_empty, hfirst]
    rfl

/-- The word is reserved only when it is asked for the first time, and stays escaped. -/
example :
    NameCache.empty.answers [⟨"type", .ofList ["type"]⟩, ⟨"kind", .ofList []⟩, ⟨"type", .ofList []⟩]
      = ["type_", "kind", "type_"] := by
  cbv

end ModelForge

/-
`Reading.lean` -- the items of a unit, read back from its lines.

The reader takes the stored lines of a unit and knows nothing about how they came to be. A line
without indentation may open an item: a record, an enum, or the constants of a record. Inside an
item the reader collects members, each with the literal of an attribute in front of it if there is
one. That is what the member is called on the wire; without an attribute it is called like itself.
Lines that say nothing of this kind are skipped.
-/
import Mathlib.Data.List.Basic
import ModelForge.Generate.DateTime
import ModelForge.Proofs.Identifiers
import ModelForge.Proofs.Literals

set_option autoImplicit false

namespace ModelForge

/-! ## Texts -/

/-- What follows `start` in a text. -/
def behind? (start : String) (text : List Char) : Option (List Char) :=
  start.toList.isPrefixOf? text

/-- The identifier that stands in a text between `before` and `after`. -/
def identifierBetween? (before after : String) (text : List Char) : Option String :=
  (behind? before text).bind fun rest =>
    (behind? after (rest.dropWhile isIdentChar)).map fun _ =>
      String.ofList (rest.takeWhile isIdentChar)

/-- The text of the literal that stands between `before` and `after`. -/
def literalBetween? (before after : String) (text : List Char) : Option String :=
  ((behind? before text).bind readLiteral?).bind fun (literal, rest) =>
    (behind? after rest).map fun _ => literal

theorem behind?_append (start : String) (rest : List Char) :
    behind? start (start.toList ++ rest) = some rest := by
  rw [behind?, List.isPrefixOf?_eq_some_iff_append_eq]

/-- A text that begins otherwise. -/
theorem behind?_of_head {start : String} {text : List Char} {c : Char}
    (hstart : start.toList.head? = some c) (htext : text.head? ≠ some c) :
    behind? start text = none := by
  cases hrest : behind? start text with
  | none => rfl
  | some rest =>
      rw [behind?, List.isPrefixOf?_eq_some_iff_append_eq] at hrest
      rw [← hrest, List.head?_append, hstart] at htext
      exact absurd rfl htext

/-- An identifier is read up to the text that follows it. -/
theorem identifierBetween?_eq (before after : String) {name : String} {c : Char} (rest : List Char)
    (hname : ∀ d ∈ name.toList, isIdentChar d = true) (hafter : after.toList.head? = some c)
    (hc : isIdentChar c = false) :
    identifierBetween? before after (before.toList ++ (name.toList ++ (after.toList ++ rest)))
      = some name := by
  -- the identifier ends where `after` begins
  obtain ⟨tail, htail⟩ : ∃ tail, after.toList = c :: tail := List.head?_eq_some_iff.1 hafter
  have hdrop : (name.toList ++ (after.toList ++ rest)).dropWhile isIdentChar
      = after.toList ++ rest := by
    rw [List.dropWhile_append_of_pos hname, htail, List.cons_append,
      List.dropWhile_cons_of_neg (by simp [hc])]
  have htake : (name.toList ++ (after.toList ++ rest)).takeWhile isIdentChar = name.toList := by
    rw [List.takeWhile_append_of_pos hname, htail, List.cons_append,
      List.takeWhile_cons_of_neg (by simp [hc]), List.append_nil]
  rw [identifierBetween?, behind?_append, Option.bind_some, hdrop, htake, behind?_append,
    Option.map_some, String.ofList_toList]

/-- A literal is read back from between two texts. -/
theorem literalBetween?_eq (before after text : String) :
    literalBetween? before after (before ++ quoted text ++ after).toList = some text := by
  have hbehind : behind? after after.toList = some [] := by
    have h := behind?_append after []
    rwa [List.append_nil] at h
  rw [literalBetween?, String.toList_append, String.toList_append,
    List.append_assoc, behind?_append, Option.bind_some, readLiteral?_quoted, Option.bind_some]
  dsimp only
  rw [hbehind, Option.map_some]

/-! ## Items -/

/-- A member of an item with the literal that goes with it, if one does: what the member is called
on the wire, or the text of a constant. -/
structure ItemMember where
  identifier : String
  literal? : Option String
  deriving DecidableEq, Repr

/-- What the member is called on the wire. Without a literal it is called like itself. -/
def ItemMember.wireName (member : ItemMember) : String := member.literal?.getD member.identifier

/-- What an item is. -/
inductive ItemKind where
  | record
  | enumeration
  /-- The constants that belong to a record. -/
  | constants
  deriving DecidableEq, Repr

/-- An item with its members, in order. -/
structure Item where
  kind : ItemKind
  name : String
  members : List ItemMember
  deriving DecidableEq, Repr

/-- The item with one more member. -/
def Item.add (item : Item) (member : ItemMember) : Item :=
  { item with members := item.members ++ [member] }

namespace ItemKind

/-- How the line begins that opens an item. -/
def keyword : ItemKind → String
  | record => "pub struct "
  | enumeration => "pub enum "
  | constants => "impl "

end ItemKind

/-- The item that a line opens. -/
def openedBy? (line : Line) : Option Item :=
  if line.indent = 0 then
    [ItemKind.record, .enumeration, .constants].findSome? fun kind =>
      (identifierBetween? kind.keyword " \x7b" line.text.toList).map fun name => ⟨kind, name, []⟩
  else none

/-! ## Lines inside of items -/

/-- What a line can say about the members of an item. -/
inductive ItemLine where
  /-- The name on the wire of the member that follows. -/
  | rename (wireName : String)
  /-- A member. -/
  | member (name : String)
  /-- The constant, with its text. -/
  | constant (text : String)
  deriving DecidableEq, Repr

/-- What a line says inside of an item, if it says anything. -/
def ItemKind.reads? (kind : ItemKind) (line : Line) : Option ItemLine :=
  match kind, line.indent with
  | record, 1 => (identifierBetween? "pub " ": " line.text.toList).map .member
  | record, 2 => (literalBetween? "rename = " "," line.text.toList).map .rename
  | enumeration, 1 =>
      ((literalBetween? "#[serde(rename = " ")]" line.text.toList).map .rename).or
        ((identifierBetween? "" "," line.text.toList).map .member)
  | constants, 1 =>
      (literalBetween? "pub const CLASS: &str = " ";" line.text.toList).map .constant
  | _, _ => none

namespace ItemKind

/-- At the first level of a record stand its fields. -/
theorem reads?_record_one (text : String) :
    record.reads? ⟨1, text⟩ = (identifierBetween? "pub " ": " text.toList).map .member := rfl

/-- At the second level stands what they are called on the wire. -/
theorem reads?_record_two (text : String) :
    record.reads? ⟨2, text⟩ = (literalBetween? "rename = " "," text.toList).map .rename := rfl

/-- In an enum the two stand at the same level. -/
theorem reads?_enumeration_one (text : String) :
    enumeration.reads? ⟨1, text⟩
      = ((literalBetween? "#[serde(rename = " ")]" text.toList).map .rename).or
        ((identifierBetween? "" "," text.toList).map .member) := rfl

/-- The constants are those of the classes. -/
theorem reads?_constants_one (text : String) :
    constants.reads? ⟨1, text⟩
      = (literalBetween? "pub const CLASS: &str = " ";" text.toList).map .constant := rfl

end ItemKind

/-! ## The reader -/

/-- The reader between two lines. -/
structure ItemReader where
  /-- The items that are closed. -/
  found : List Item
  /-- The item that is open. -/
  current? : Option Item
  /-- What the next member is called on the wire, if that was said. -/
  literal? : Option String

namespace ItemReader

/-- The reader in front of a unit. -/
def start : ItemReader := ⟨[], none, none⟩

/-- The reader behind one more line. -/
def next (reader : ItemReader) (line : Line) : ItemReader :=
  match reader.current? with
  | none => { reader with current? := openedBy? line }
  | some item =>
      if line = ⟨0, "\x7d"⟩ then ⟨reader.found ++ [item], none, none⟩
      else match item.kind.reads? line with
        | some (.rename wireName) => { reader with literal? := some wireName }
        | some (.member name) => ⟨reader.found, some (item.add ⟨name, reader.literal?⟩), none⟩
        | some (.constant text) => ⟨reader.found, some (item.add ⟨"CLASS", some text⟩), none⟩
        | none => reader

/-- The reader behind more lines. -/
def run (reader : ItemReader) (lines : List Line) : ItemReader := lines.foldl next reader

theorem run_append (reader : ItemReader) (lines lines' : List Line) :
    reader.run (lines ++ lines') = (reader.run lines).run lines' := List.foldl_append

theorem run_cons (reader : ItemReader) (line : Line) (lines : List Line) :
    reader.run (line :: lines) = (reader.next line).run lines := rfl

theorem run_singleton (reader : ItemReader) (line : Line) :
    reader.run [line] = reader.next line := rfl

/-- Lines that say nothing leave the reader as it is. -/
theorem run_of_ignored {reader : ItemReader} {lines : List Line}
    (h : ∀ line ∈ lines, reader.next line = reader) : reader.run lines = reader := by
  induction lines with
  | nil => rfl
  | cons line rest ih =>
      rw [List.forall_mem_cons] at h
      rw [run_cons, h.1]
      exact ih h.2

end ItemReader

/-! ## Stored lines -/

/-- The line that was stored as the given text. -/
def storedLine (text : String) : Line := Line.ofSpaced text.toList

/-- The items of a unit, from its stored lines. -/
def itemsIn (texts : List String) : List Item := (ItemReader.start.run (texts.map storedLine)).found

/-- A line that is known by what is stored of it: its text begins with no space, and only a line
at the first level is empty. -/
def Line.IsPlain (line : Line) : Prop :=
  line.text.toList.head? ≠ some ' ' ∧ (line.text = "" → line.indent = 0)

instance (line : Line) : Decidable line.IsPlain := inferInstanceAs (Decidable (_ ∧ _))

/-- A line that begins with something else than a space is plain. -/
theorem Line.isPlain_of_head {line : Line} {c : Char} (h : line.text.toList.head? = some c)
    (hc : c ≠ ' ') : line.IsPlain := by
  refine ⟨fun hspace => hc (Option.some.inj (h.symm.trans hspace)), fun hempty => ?_⟩
  rw [hempty] at h
  exact absurd h (by simp)

/-- Four spaces for each level. -/
theorem toList_join_levelIndent (level : Nat) :
    (String.join (List.replicate level Line.levelIndent)).toList
      = List.replicate (4 * level) ' ' := by
  induction level with
  | zero => rfl
  | succ level ih =>
      rw [List.replicate_succ, String.join_cons, String.toList_append, ih,
        Nat.mul_succ, Nat.add_comm, List.replicate_add]
      rfl

/-- **A plain line is read back from what is stored.** -/
theorem storedLine_render {line : Line} (h : line.IsPlain) : storedLine line.render = line := by
  obtain ⟨level, text⟩ := line
  obtain ⟨hspace, hempty⟩ := h
  dsimp only at hspace hempty
  unfold storedLine Line.ofSpaced Line.render
  dsimp only
  by_cases htext : text.isEmpty = true
  · obtain rfl := String.isEmpty_iff.1 htext
    rw [if_pos htext, hempty rfl]
    rfl
  · rw [if_neg htext, String.toList_append, toList_join_levelIndent]
    -- the spaces end where the text begins
    have hspaces : ∀ c ∈ List.replicate (4 * level) ' ', decide (c = ' ') = true := fun c hc =>
      decide_eq_true (List.eq_of_mem_replicate hc)
    cases hchars : text.toList with
    | nil => exact absurd (String.toList_eq_nil_iff.1 hchars) (fun h => htext (h ▸ rfl))
    | cons c rest =>
        rw [hchars, List.head?_cons] at hspace
        have hc : c ≠ ' ' := fun h => hspace (congrArg some h)
        rw [List.takeWhile_append_of_pos hspaces, List.dropWhile_append_of_pos hspaces,
          List.takeWhile_cons_of_neg (by simpa using hc),
          List.dropWhile_cons_of_neg (by simpa using hc), List.append_nil,
          List.length_replicate, Nat.mul_div_cancel_left level (by decide), ← hchars,
          String.ofList_toList]

/-- Plain lines are read back as they were before they were stored. -/
theorem map_storedLine_render {lines : List Line} (h : ∀ line ∈ lines, line.IsPlain) :
    (lines.map Line.render).map storedLine = lines := by
  have hback : ∀ line ∈ lines, (storedLine ∘ Line.render) line = id line := fun line hline =>
    storedLine_render (h line hline)
  rw [List.map_map, List.map_congr_left hback, List.map_id]

end ModelForge

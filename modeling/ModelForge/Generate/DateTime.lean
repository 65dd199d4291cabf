/-
`DateTime.lean` -- the unit with the hooks of date-times.

The unit is a fixed text but for one literal, the format of date-times. It is written like every
other unit, line by line: the text is cut at line feeds, and the leading spaces of a line become
its level.
-/
import ModelForge.Generate.Options
import ModelForge.Output.Fragment
import ModelForge.Text.Quoted

set_option autoImplicit false

namespace ModelForge

/-- The module of the unit. -/
def utilityModule : String := "utils"

/-! ## Source text -/

/-- Lines as a text, each followed by a line feed. -/
def textOfLines (lines : List String) : String := String.join (lines.map (· ++ "\n"))

/-- The text in front of the literal. -/
def dateTimeHead : String :=
  textOfLines
    ["use chrono::\x7b DateTime, NaiveDateTime, TimeZone, Utc \x7d;",
     "use serde::\x7b Deserialize, Deserializer, Serializer \x7d;",
     ""]
  ++ "const DATETIME_FORMAT: &str = "

/-- The text behind the literal. -/
def dateTimeTail : String :=
  textOfLines
    [";",
     "",
     "pub fn serialize_datetime_option<S>(datetime: &Option<DateTime<Utc>>, serializer: S) -> Result<S::Ok, S::Error>",
     "where",
     "    S: Serializer,",
     "\x7b",
     "    match datetime \x7b",
     "        Some(dt) => serializer.serialize_some(&dt.format(DATETIME_FORMAT).to_string()),",
     "        None => serializer.serialize_none(),",
     "    \x7d",
     "\x7d",
     "",
     "pub fn deserialize_datetime_option<'de, D>(deserializer: D) -> Result<Option<DateTime<Utc>>, D::Error>",
     "where",
     "    D: Deserializer<'de>,",
     "\x7b",
     "    match Option::<String>::deserialize(deserializer)? \x7b",
     "        Some(s) => NaiveDateTime::parse_from_str(&s, DATETIME_FORMAT)",
     "            .map(|naive| Some(Utc.from_utc_datetime(&naive)))",
     "            .map_err(serde::de::Error::custom),",
     "        None => Ok(None),",
     "    \x7d",
     "\x7d",
     "",
     "pub fn serialize_datetime<S>(datetime: &DateTime<Utc>, serializer: S) -> Result<S::Ok, S::Error>",
     "where",
     "    S: Serializer,",
     "\x7b",
     "    serializer.serialize_str(&datetime.format(DATETIME_FORMAT).to_string())",
     "\x7d",
     "",
     "pub fn deserialize_datetime<'de, D>(deserializer: D) -> Result<DateTime<Utc>, D::Error>",
     "where",
     "    D: Deserializer<'de>,",
     "\x7b",
     "    let s = String::deserialize(deserializer)?;",
     "    NaiveDateTime::parse_from_str(&s, DATETIME_FORMAT)",
     "        .map(|naive| Utc.from_utc_datetime(&naive))",
     "        .map_err(serde::de::Error::custom)",
     "\x7d"]

/-- The whole text for a format. -/
def dateTimeSource (format : String) : String := dateTimeHead ++ quoted format ++ dateTimeTail

/-! ## Lines -/

/-- A text cut at its line feeds. A line feed at the end closes the last line and opens none. -/
def splitLines : List Char → List (List Char)
  | [] => []
  | c :: rest =>
      if c = '\n' then [] :: splitLines rest
      else match splitLines rest with
        | [] => [[c]]
        | line :: lines => (c :: line) :: lines

/-- A line of text as a line at a level: four leading spaces are one level, and fewer are none. -/
def Line.ofSpaced (text : List Char) : Line where
  indent := (text.takeWhile (· = ' ')).length / 4
  text := String.ofList (text.dropWhile (· = ' '))

/-- The contents of the unit for a format. -/
def dateTimeFragment (format : String) : Fragment :=
  .all ((splitLines (dateTimeSource format).toList).map fun text =>
    let line := Line.ofSpaced text
    .lineAt line.indent line.text)

end ModelForge

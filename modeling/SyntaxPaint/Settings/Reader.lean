import SyntaxPaint.Json.Numeral
import SyntaxPaint.Json.Reader
import SyntaxPaint.Settings.Basic
import SyntaxPaint.Text.Escape
/-!
# Reading settings

Settings are read from JSON. A record is an object with the names of its fields, or an array of
its fields in order; fields that are missing keep their standard values and unknown members are
passed over. The first objection in the order of the text is reported, whether it is to what the
text says or to its being no JSON.
-/
namespace SyntaxPaint

/-- What a place in the settings wants. -/
inductive Wanted where
  | settings
  | logging
  | limits
  | highlight
  | theme
  | count
  | text
  | sequence
  | map
  | unit
deriving DecidableEq, Repr

def Wanted.name : Wanted → String
  | settings => "struct MerxConfig"
  | logging => "struct LoggingConfig"
  | limits => "struct LimitConfig"
  | highlight => "struct HighlightConfig"
  | theme => "struct ThemeConfig"
  | count => "usize"
  | text => "a string"
  | sequence => "a sequence"
  | map => "a map"
  | unit => "unit"

/-- What stands there instead. -/
inductive Met where
  | null
  | boolean (b : Bool)
  | integer (i : Int)
  | double (written : String)
  | text (s : String)
  | sequence
  | map
deriving DecidableEq, Repr

def Met.name : Met → String
  | null => "null"
  | boolean b => s!"boolean \x60{b}\x60"
  | integer i => s!"integer \x60{i}\x60"
  | double written => s!"floating point \x60{written}\x60"
  | text s => "string " ++ String.ofList (quotedText s.toList)
  | sequence => "sequence"
  | map => "map"

inductive SettingsError where
  | fault (f : Fault)
  | wrongType (met : Met) (wanted : Wanted)
  | wrongValue (met : Met) (wanted : Wanted)
  | unknownLevel (name : String)
  | duplicateField (name : String)
deriving DecidableEq, Repr

/-- The objection to what a well-formed text says. -/
def SettingsError.message : SettingsError → String
  | fault .malformed => "malformed"
  | fault .ended => "ended too early"
  | wrongType met wanted => s!"invalid type: {met.name}, expected {wanted.name}"
  | wrongValue met wanted => s!"invalid value: {met.name}, expected {wanted.name}"
  | unknownLevel name =>
    let known := ", ".intercalate (Level.names.map fun entry => s!"\x60{entry.1}\x60")
    s!"unknown variant \x60{name}\x60, expected one of {known}"
  | duplicateField name => s!"duplicate field \x60{name}\x60"

abbrev Reading (α : Type) := Except SettingsError α

/-- What a faulty part gives. -/
def faulty {α : Type} (f : Fault) : Reading α := .error (.fault f)

/-- What a quoted text says. -/
def Quoted.said (q : Quoted) : Reading String := q.value.mapError .fault

def NumberValue.met : NumberValue → Met
  | .integer i => .integer i
  | .double x => .double (String.ofList (doubleText x))

/-- A value where another was wanted. -/
def Tree.misfit {α : Type} (wanted : Wanted) : Tree → Reading α
  | .word .null => .error (.wrongType .null wanted)
  | .word .true => .error (.wrongType (.boolean true) wanted)
  | .word .false => .error (.wrongType (.boolean false) wanted)
  | .brokenWord _ f => faulty f
  | .number n =>
    match n.value? with
    | some v => .error (.wrongType v.met wanted)
    | none => faulty .malformed
  | .brokenNumber f => faulty f
  | .string q => do .error (.wrongType (.text (← q.said)) wanted)
  | .array _ => .error (.wrongType .sequence wanted)
  | .object _ => .error (.wrongType .map wanted)
  | .absent f => faulty f

def readText : Tree → Reading String
  | .string q => q.said
  | t => t.misfit .text

def readCount : Tree → Reading UInt64
  | .number n =>
    match n.value? with
    | some (.integer i) =>
      if i < 0 then .error (.wrongValue (.integer i) .count) else .ok (UInt64.ofNat i.toNat)
    | some v => .error (.wrongType v.met .count)
    | none => faulty .malformed
  | t => t.misfit .count

def readUnit : Tree → Reading Unit
  | .word .null => .ok ()
  | t => t.misfit .unit

def levelNamed (name : String) : Reading Level :=
  match Level.ofName? name with
  | some level => .ok level
  | none => .error (.unknownLevel name)

/-- A level: its name, or an object whose only member has that name and says `null`. Anything else
is no level to begin with. -/
def readLevel : Tree → Reading Level
  | .string q => do levelNamed (← q.said)
  | .object (.member key value rest) => do
    let level ← levelNamed (← key.said)
    readUnit value
    match rest with
    | .closed => return level
    | .cut f false => faulty f
    | _ => faulty .malformed
  | .object (.cut f _) => faulty f
  | .absent f => faulty f
  | _ => faulty .malformed

def readOverride : Tree → Reading (Option Level)
  | .word .null => .ok none
  | .brokenWord .null f => faulty f
  | t => (readLevel t).map some

/-- A field of a record: its name, and how it is read and put into the record. -/
structure Field (ρ : Type) where
  name : String
  set : Tree → Reading (ρ → ρ)

def Field.of {ρ α : Type} (name : String) (read : Tree → Reading α) (put : α → ρ → ρ) : Field ρ :=
  ⟨name, fun t => (read t).map put⟩

/-- Reads the members of a record over the values that it has. -/
def readMembers {ρ : Type} (fields : List (Field ρ)) : Members → List String → ρ → Reading ρ
  | .closed, _, record => .ok record
  | .cut f _, _, _ => faulty f
  | .member key value rest, seen, record => do
    let name ← key.said
    match fields.find? fun field => field.name == name with
    | none =>
      match value.skipped with
      | some f => faulty f
      | none => readMembers fields rest seen record
    | some field =>
      if name ∈ seen then .error (.duplicateField name)
      else
        let put ← field.set value
        readMembers fields rest (name :: seen) (put record)

/-- Reads the fields of a record from items in their order; there may be fewer, not more. -/
def readItems {ρ : Type} : List (Field ρ) → Items → ρ → Reading ρ
  | _, .closed, record => .ok record
  | [], .cut f false, _ => faulty f
  | [], _, _ => faulty .malformed
  | _ :: _, .cut f _, _ => faulty f
  | field :: fields, .item value rest, record => do
    let put ← field.set value
    readItems fields rest (put record)

def readRecord {ρ : Type} (wanted : Wanted) (fields : List (Field ρ)) (standard : ρ) :
    Tree → Reading ρ
  | .object members => readMembers fields members [] standard
  | .array items => readItems fields items standard
  | t => t.misfit wanted

def readEntries : Members → Dictionary → Reading Dictionary
  | .closed, d => .ok d
  | .cut f _, _ => faulty f
  | .member key value rest, d => do
    let name ← key.said
    let written ← readText value
    readEntries rest (d.insert name written)

def readDictionary : Tree → Reading Dictionary
  | .object members => readEntries members .empty
  | t => t.misfit .map

def readEach {α : Type} (read : Tree → Reading α) : Items → Reading (List α)
  | .closed => .ok []
  | .cut f _ => faulty f
  | .item value rest => do
    let first ← read value
    return first :: (← readEach read rest)

def readSequence {α : Type} (read : Tree → Reading α) : Tree → Reading (List α)
  | .array items => readEach read items
  | t => t.misfit .sequence

def ThemeSettings.fields : List (Field ThemeSettings) :=
  [.of "name" readText fun v s => { s with name := v },
    .of "background" readText fun v s => { s with background := v },
    .of "foreground" readText fun v s => { s with foreground := v },
    .of "colors" readDictionary fun v s => { s with colors := v }]

def readTheme : Tree → Reading ThemeSettings := readRecord .theme ThemeSettings.fields .blank

def LoggingSettings.fields : List (Field LoggingSettings) :=
  [.of "level" readLevel fun v s => { s with level := v },
    .of "lexer" readOverride fun v s => { s with lexer := v },
    .of "parser" readOverride fun v s => { s with parser := v },
    .of "highlight" readOverride fun v s => { s with highlight := v }]

def LimitSettings.fields : List (Field LimitSettings) :=
  [.of "max_nesting_depth" readCount fun v s => { s with maxNestingDepth := v }]

def HighlightSettings.fields : List (Field HighlightSettings) :=
  [.of "theme" readText fun v s => { s with theme := v },
    .of "themes" (readSequence readTheme) fun v s => { s with themes := v }]

def Settings.fields : List (Field Settings) :=
  [.of "logging" (readRecord .logging LoggingSettings.fields .standard)
      fun v s => { s with logging := v },
    .of "limits" (readRecord .limits LimitSettings.fields .standard)
      fun v s => { s with limits := v },
    .of "highlight" (readRecord .highlight HighlightSettings.fields .standard)
      fun v s => { s with highlight := v }]

def readSettings : Tree → Reading Settings := readRecord .settings Settings.fields .standard

/-- The settings that a text holds. Nothing but blanks may follow them. -/
def Settings.parse (text : List Char) : Reading Settings :=
  let (tree, rest) := Tree.read text
  do
    let settings ← readSettings tree
    if skipJsonBlanks rest = [] then return settings else faulty .malformed

end SyntaxPaint

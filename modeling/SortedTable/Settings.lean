import SortedTable.Decimal.Nearest
import SortedTable.Decimal.Shortest
import SortedTable.Text.Blank
import SortedTable.Text.Numeral
import SortedTable.Text.Quoted
import SortedTable.Version

namespace SortedTable

structure Settings where
  dataDir : String := "data/sstables"
  falsePositiveChance : Float := 0.01
  /-- The size in bytes from which on a block of a partition's index is closed. -/
  blockSize : UInt64 := 65536
  formatVersion : String := Version.current.name
  /-- Whether a finished file is forced to stable storage. -/
  sync : Bool := true
  deriving Inhabited

/-- The variables that override a setting. -/
inductive Variable where
  | dataDir
  | falsePositiveChance
  | blockKibibytes
  | formatVersion
  | sync
  deriving DecidableEq, Repr

def Variable.name : Variable → String
  | .dataDir => "SSTABLE_DATA_DIR"
  | .falsePositiveChance => "SSTABLE_BLOOM_FP_CHANCE"
  | .blockKibibytes => "SSTABLE_COLUMN_INDEX_KB"
  | .formatVersion => "SSTABLE_FORMAT_VERSION"
  | .sync => "SSTABLE_SYNC"

/-- All variables in the order of their reading. -/
def Variable.all : List Variable :=
  [.dataDir, .falsePositiveChance, .blockKibibytes, .formatVersion, .sync]

/-- Why the text of a variable has no value. -/
inductive UnreadableFlaw where
  | numeral (flaw : Text.NumeralFlaw)
  | decimal (flaw : Decimal.DecimalFlaw)
  | truthValue
  deriving DecidableEq

def UnreadableFlaw.message : UnreadableFlaw → String
  | .numeral flaw => flaw.message
  | .decimal flaw => flaw.message
  | .truthValue => "provided string was not `true` or `false`"

inductive SettingsError where
  | unreadable (source : Variable) (value : String) (flaw : UnreadableFlaw)
  | chanceOutOfRange (chance : Float)
  | noBlockSize
  | unknownVersion (name : String)

/-- The greatest chance below one that still sizes a filter with at least one hash function. -/
def maxFalsePositiveChance : Float := 0.7

/-- A list of texts, quoted and in brackets. -/
def quoteAll (texts : List String) : String :=
  "[" ++ ", ".intercalate (texts.map Text.quote) ++ "]"

/-- The wording that all invalid values share. -/
def invalidValue (value key reason : String) : String :=
  s!"invalid value {Text.quote value} for {key}: {reason}"

def SettingsError.message : SettingsError → String
  | .unreadable source value flaw => invalidValue value source.name flaw.message
  | .chanceOutOfRange chance =>
      invalidValue (Decimal.text chance) "bloom_fp_chance"
        s!"must be in (0, {Decimal.text maxFalsePositiveChance}] or exactly 1"
  | .noBlockSize => invalidValue "0" "column_index_size" "must be positive"
  | .unknownVersion name =>
      invalidValue name "format_version" s!"expected one of {quoteAll Version.names}"

namespace Settings

/-- Whether a chance is valid: above zero and up to the greatest one that sizes a filter, or one. -/
def validChance (chance : Float) : Bool :=
  0.0 < chance && (chance ≤ maxFalsePositiveChance || chance == 1.0)

/-- Checks the chance, the block size and the version, in this order. -/
def validate (settings : Settings) : Except SettingsError Unit :=
  if !validChance settings.falsePositiveChance then
    .error (.chanceOutOfRange settings.falsePositiveChance)
  else if settings.blockSize = 0 then .error .noBlockSize
  else if (Version.ofName? settings.formatVersion).isNone then
    .error (.unknownVersion settings.formatVersion)
  else .ok ()

/-- A number of bytes for a number of kibibytes; it stops at the largest word. -/
def bytesOfKibibytes (count : UInt64) : UInt64 :=
  if count.toNat * 1024 < UInt64.size then count * 1024 else UInt64.ofNat (UInt64.size - 1)

/-- Reads the text of a variable without the blanks around it. -/
def readWith {α : Type} (source : Variable) (read : String → Except UnreadableFlaw α)
    (value : String) : Except SettingsError α :=
  match read (Text.trim value) with
  | .ok result => .ok result
  | .error flaw => .error (.unreadable source value flaw)

def readChance (text : String) : Except UnreadableFlaw Float :=
  (Decimal.read text).mapError .decimal

def readCount (text : String) : Except UnreadableFlaw UInt64 :=
  (Text.readWord64 text).mapError .numeral

def readTruth : String → Except UnreadableFlaw Bool
  | "true" => .ok true
  | "false" => .ok false
  | _ => .error .truthValue

/-- Replaces one setting if its variable has a value. -/
def override (settings : Settings) (source : Variable) (value : Option String) :
    Except SettingsError Settings :=
  match value with
  | none => .ok settings
  | some text =>
      match source with
      | .dataDir => .ok { settings with dataDir := text }
      | .falsePositiveChance =>
          (readWith source readChance text).map fun chance =>
            { settings with falsePositiveChance := chance }
      | .blockKibibytes =>
          (readWith source readCount text).map fun count =>
            { settings with blockSize := bytesOfKibibytes count }
      | .formatVersion => .ok { settings with formatVersion := text }
      | .sync => (readWith source readTruth text).map fun sync => { settings with sync := sync }

/-- The defaults with all overrides, if the result is valid. -/
def fromLookup (lookup : String → Option String) : Except SettingsError Settings := do
  let settings ← Variable.all.foldlM (fun settings source =>
    settings.override source (lookup source.name)) {}
  settings.validate
  pure settings

end Settings

end SortedTable

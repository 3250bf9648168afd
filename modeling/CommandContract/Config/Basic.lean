import CommandContract.Error
import CommandContract.Json.Fields
import CommandContract.Number.Numeral
import CommandContract.Text.Blank
import CommandContract.Text.LetterCase

set_option autoImplicit false

/-!
# Configuration

How long a chain may be, whether programs outside may run, and where runs are recorded. The
environment overrides what a file says.
-/
namespace CommandContract

structure EngineSection where
  /-- the longest chain, counting the command that started it -/
  maxChainDepth : Nat
  allowExternal : Bool
  projectRoot : Option String
  deriving DecidableEq, Repr

structure TraceSection where
  enabled : Bool
  path : String
  deriving DecidableEq, Repr

structure Config where
  engine : EngineSection
  trace : TraceSection
  logFilter : String
  deriving DecidableEq, Repr

namespace Config

mutual

/-- Numbers have at most 128 bits, also in what belongs to no field. -/
def isReadable : Value → Bool
  | .number (.int n) => decide (-(pow2 127 : Int) ≤ n ∧ n < (pow2 128 : Int))
  | .array items => areReadable items
  | .object members => membersReadable members
  | _ => true

def areReadable : List Value → Bool
  | [] => true
  | v :: vs => isReadable v && areReadable vs

def membersReadable : List (String × Value) → Bool
  | [] => true
  | (_, v) :: ms => isReadable v && membersReadable ms

end

/-- The fields of a section. What an array holds behind the last field is not read at all. -/
def sectionFields? (names : List String) (v : Value) : Option (Members Value) :=
  (Fields.leading? names v).filter membersReadable

end Config

namespace EngineSection

def default : EngineSection := ⟨16, false, none⟩

def ofValue? (v : Value) : Option EngineSection := do
  let ms ← Config.sectionFields? ["max_chain_depth", "allow_external", "project_root"] v
  let depth ← Fields.withDefault "max_chain_depth" default.maxChainDepth Value.unsigned? ms
  let external ← Fields.withDefault "allow_external" default.allowExternal Fields.bool? ms
  let projectRoot ← Fields.optional "project_root" Value.string? ms
  some ⟨depth, external, projectRoot⟩

end EngineSection

namespace TraceSection

def default : TraceSection := ⟨false, ".carapace/traces.jsonl"⟩

def ofValue? (v : Value) : Option TraceSection := do
  let ms ← Config.sectionFields? ["enabled", "path"] v
  let enabled ← Fields.withDefault "enabled" default.enabled Fields.bool? ms
  let path ← Fields.withDefault "path" default.path Value.string? ms
  some ⟨enabled, path⟩

end TraceSection

namespace Config

def default : Config := ⟨EngineSection.default, TraceSection.default, "warn"⟩

/-- The name of the configuration file below a descriptor root. -/
def fileName : String := "carapace.toml"

def logFilter? (v : Value) : Option String := do
  let ms ← sectionFields? ["filter"] v
  Fields.withDefault "filter" default.logFilter Value.string? ms

def ofValue? (v : Value) : Option Config := do
  let sections := ["engine", "trace", "log"]
  let ms ← (Fields.leading? sections v).filter fun ms =>
    membersReadable (Fields.unknown sections ms)
  let engine ← Fields.withDefault "engine" EngineSection.default EngineSection.ofValue? ms
  let trace ← Fields.withDefault "trace" TraceSection.default TraceSection.ofValue? ms
  let logFilter ← Fields.withDefault "log" default.logFilter logFilter? ms
  some ⟨engine, trace, logFilter⟩

def check (c : Config) : Except ConfigFault Config :=
  if c.engine.maxChainDepth = 0 then .error .zeroDepth else .ok c

/-- A number without a sign other than plus, within 64 bits. -/
def depth? (text : String) : Option Nat :=
  let cs := Text.trim text.toList
  if cs.head? = some '-' then none
  else ((Decimal.integer? cs).filter Number.isUnsigned).map Int.toNat

/-- Applies the variables of an environment. -/
def override (env : Members String) (c : Config) : Except ConfigFault Config := do
  let depth ← match Members.get? "CARAPACE_MAX_CHAIN_DEPTH" env with
    | none => .ok c.engine.maxChainDepth
    | some text =>
      match depth? text with
      | some n => .ok n
      | none => .error (.depthNotNumber text)
  let external :=
    match Members.get? "CARAPACE_ALLOW_EXTERNAL" env with
    | none => c.engine.allowExternal
    | some text => ["1", "true", "yes", "on"].contains (Text.asciiLower text.trimBlank)
  let logFilter :=
    match Members.get? "CARAPACE_LOG" env with
    | none => c.logFilter
    | some text => if text.isBlankText then c.logFilter else text
  check
    { c with
      engine := { c.engine with maxChainDepth := depth, allowExternal := external }
      logFilter }

/-- Where runs are recorded: a relative path is taken from the descriptor root. -/
def tracePath (c : Config) (root : String) : String := Path.join root c.trace.path

end Config

end CommandContract

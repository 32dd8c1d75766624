import Needle.Error
import Needle.Level

/-!
# Configuration

The settings in three sections. Every field and every section has a default, and reading fills in
whatever is left out; `validate` says which settings the rest of the program can work with.
-/
set_option autoImplicit false

namespace Needle

structure CompilerConfig where
  defaultNamespace : String := "default"
  failOnWarnings : Bool := false
deriving DecidableEq

structure ScanConfig where
  fastMode : Bool := false
  /-- Seconds; 0 is no limit. -/
  timeoutSecs : UInt64 := 0
  followSymlinks : Bool := false
  maxFileSizeMb : UInt64 := 100
deriving DecidableEq

structure LoggingConfig where
  logLevel : String := "info"
deriving DecidableEq

structure Config where
  compiler : CompilerConfig := {}
  scan : ScanConfig := {}
  logging : LoggingConfig := {}
deriving DecidableEq

def wordSize : Nat := 18446744073709551616

namespace CompilerConfig

def fieldNames : List String := ["default_namespace", "fail_on_warnings"]

def toJson (c : CompilerConfig) : Json :=
  .record [("default_namespace", .text c.defaultNamespace),
    ("fail_on_warnings", .bool c.failOnWarnings)]

end CompilerConfig

namespace ScanConfig

def fieldNames : List String := ["fast_mode", "timeout_secs", "follow_symlinks", "max_file_size_mb"]

def toJson (c : ScanConfig) : Json :=
  .record [("fast_mode", .bool c.fastMode), ("timeout_secs", .ofNat c.timeoutSecs.toNat),
    ("follow_symlinks", .bool c.followSymlinks), ("max_file_size_mb", .ofNat c.maxFileSizeMb.toNat)]

/-- The size limit in bytes, as far as 64 bits can hold it. -/
def maxFileSize (c : ScanConfig) : Nat :=
  min (c.maxFileSizeMb.toNat * 1048576) (wordSize - 1)

end ScanConfig

namespace LoggingConfig

def fieldNames : List String := ["log_level"]

def toJson (c : LoggingConfig) : Json :=
  .record [("log_level", .text c.logLevel)]

end LoggingConfig

def Json.orDefault {α : Type} (read : Json → Option α) (default : α) : Option Json → Option α
  | none => some default
  | some v => read v

namespace CompilerConfig

def ofJson? (v : Json) : Option CompilerConfig :=
  match v.record? fieldNames with
  | some ⟨_, [name, strict]⟩ => do
    let name ← Json.orDefault Json.asText? ({} : CompilerConfig).defaultNamespace name
    let strict ← Json.orDefault Json.asBool? ({} : CompilerConfig).failOnWarnings strict
    pure ⟨name, strict⟩
  | _ => none

end CompilerConfig

namespace ScanConfig

def wordOfJson? (v : Json) : Option UInt64 :=
  (v.asNat? wordSize).map UInt64.ofNat

def ofJson? (v : Json) : Option ScanConfig :=
  match v.record? fieldNames with
  | some ⟨_, [fast, timeout, follow, size]⟩ => do
    let fast ← Json.orDefault Json.asBool? ({} : ScanConfig).fastMode fast
    let timeout ← Json.orDefault wordOfJson? ({} : ScanConfig).timeoutSecs timeout
    let follow ← Json.orDefault Json.asBool? ({} : ScanConfig).followSymlinks follow
    let size ← Json.orDefault wordOfJson? ({} : ScanConfig).maxFileSizeMb size
    pure ⟨fast, timeout, follow, size⟩
  | _ => none

end ScanConfig

namespace LoggingConfig

def ofJson? (v : Json) : Option LoggingConfig :=
  match v.record? fieldNames with
  | some ⟨_, [level]⟩ => do
    let level ← Json.orDefault Json.asText? ({} : LoggingConfig).logLevel level
    pure ⟨level⟩
  | _ => none

end LoggingConfig

namespace Config

def fieldNames : List String := ["compiler", "scan", "logging"]

def toJson (c : Config) : Json :=
  .record [("compiler", c.compiler.toJson), ("scan", c.scan.toJson),
    ("logging", c.logging.toJson)]

def ofJson? (v : Json) : Option Config :=
  match v.record? fieldNames with
  | some ⟨_, [compiler, scan, logging]⟩ => do
    let compiler ← Json.orDefault CompilerConfig.ofJson? {} compiler
    let scan ← Json.orDefault ScanConfig.ofJson? {} scan
    let logging ← Json.orDefault LoggingConfig.ofJson? {} logging
    pure ⟨compiler, scan, logging⟩
  | _ => none

/-- The engine counts the seconds of a timeout in 31 bits. -/
def maxTimeout : Nat := 2147483647

/-- Refuses settings that a later call would refuse or change; the first faulty field is named. -/
def validate (c : Config) : Except Error Unit :=
  if c.compiler.defaultNamespace.isEmpty || c.compiler.defaultNamespace.toList.contains '\x00' then
    .error (.configInvalid "compiler.default_namespace"
      "Must be a non-empty string without NUL bytes")
  else if maxTimeout < c.scan.timeoutSecs.toNat then
    .error (.configInvalid "scan.timeout_secs" ("Must be at most " ++ Decimal.ofNat maxTimeout))
  else if c.scan.maxFileSizeMb = 0 then
    .error (.configInvalid "scan.max_file_size_mb" "Must be greater than 0")
  else if (Level.ofName? c.logging.logLevel).isNone then
    .error (.configInvalid "logging.log_level"
      "Must be one of trace, debug, info, warn, error")
  else .ok ()

end Config

end Needle

import BackendAssembly.Capabilities
import BackendAssembly.JsonValue
import BackendAssembly.Register

namespace BackendAssembly

structure LoongArch64 where
  features : SwitchSet CpuFeature
  flags : SwitchSet TuningFlag
  deriving DecidableEq

namespace LoongArch64

def name : String := "loongarch64"

def wordSize : Nat := 64

def endianness : String := "little"

def returnAddressSize : Nat := 8

/-- Features may go by an alias, flags may not. -/
def ofStore (store : Store) (aliases : Aliases) : LoongArch64 :=
  ⟨capabilities CpuFeature store aliases, store.flags⟩

def text (_ : LoongArch64) : String :=
  name ++ " (" ++ toString wordSize ++ "-bit, Little-endian)"

def toJson (arch : LoongArch64) : JsonValue :=
  .object
    [("name", .string name), ("word-size", .number wordSize), ("endianness", .string endianness),
     ("features", .array (arch.features.names.map .string)), ("flags", .array (arch.flags.names.map .string))]

end LoongArch64

/-- What code is generated for: the architecture and the form of object pointers. The layout policy is the same for
the whole platform family. -/
structure Target where
  arch : LoongArch64
  compressedOops : Bool
  deriving DecidableEq

namespace Target

def addressing64Bit : Bool := true

def stackAlignment : Nat := 16

def implicitNullCheckLimit : Nat := 4096

def inlineObjects : Bool := true

def wordSizeBytes : Nat := LoongArch64.wordSize / 8

def useCompressedOops : String := "useCompressedOops"

def ofStore (store : Store) (aliases : Aliases) : Target :=
  ⟨LoongArch64.ofStore store aliases, store.isSet useCompressedOops⟩

def toJson (target : Target) : JsonValue :=
  .object
    [("arch", target.arch.toJson), ("addressing-64bit", .bool addressing64Bit),
     ("stack-alignment", .number stackAlignment), ("implicit-null-check-limit", .number implicitNullCheckLimit),
     ("inline-objects", .bool inlineObjects), ("compressed-oops", .bool target.compressedOops)]

def pretty (target : Target) : String :=
  target.toJson.pretty 0

def nameList (names : List String) : String :=
  "(" ++ toString names.length ++ "): " ++ ", ".intercalate names

def text (target : Target) : String :=
  line ("=== Target: " ++ LoongArch64.name ++ " ===") ++
  line ("Architecture: " ++ target.arch.text) ++
  line ("Features " ++ nameList target.arch.features.names) ++
  line ("Flags " ++ nameList target.arch.flags.names) ++
  line "" ++
  line "--- Layout policy ---" ++
  line ("  64-bit addressing:         " ++ toString addressing64Bit) ++
  line ("  Stack alignment:           " ++ toString stackAlignment ++ " bytes") ++
  line ("  Implicit null check limit: " ++ toString implicitNullCheckLimit ++ " bytes") ++
  line ("  Inline objects:            " ++ toString inlineObjects) ++
  line ("  Return address size:       " ++ toString LoongArch64.returnAddressSize ++ " bytes") ++
  "  Compressed oops:           " ++ toString target.compressedOops

end Target

end BackendAssembly

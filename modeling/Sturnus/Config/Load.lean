import Sturnus.Config.Deserialize
import Sturnus.Foundation.Toml.Lines

/-!
# Loading the configuration

The environment is interpolated into the text of the file before the text is
read as TOML.  The crates that do either are parameters: the one puts values in
textually and once, the other follows the grammar of basic strings.
-/

namespace Sturnus

open Foundation Foundation.Interpolation Foundation.Toml

/-- What `load` calls: `shellexpand::env`, `toml::from_str` and the parser of addresses. -/
structure Crates (Scalar F Addr : Type) where
  expand : Environment → Text → Except Text Text
  toml : Text → Except Text (Value Scalar Text)
  scalars : Scalars Scalar F
  parseAddr : Text → Option Addr

structure Crates.Lawful {Scalar F Addr : Type} (crates : Crates Scalar F Addr) : Prop where
  substitutes : Substitutes crates.expand
  compositional : Compositional crates.toml

/-- Why a configuration cannot be loaded. -/
inductive LoadError (F Addr : Type) where
  | unreadable (path error : Text)
  | expansion (error : Text)
  | toml (error : Text)
  /-- The document is no configuration. -/
  | unfit
  | invalid (error : ConfigError F Addr)

/-- How a misfit is described is left open, as are numbers and addresses. -/
def LoadError.message {F Addr : Type} (number : F → Text) (address : Addr → Text) (unfit : Text) :
    LoadError F Addr → Text
  | .unreadable path error =>
      "failed to read config file '".toList ++ path ++ "': ".toList ++ error
  | .expansion error => "env var expansion failed: ".toList ++ error
  | .toml error => error
  | .unfit => unfit
  | .invalid error => error.message number address

namespace Config

variable {Scalar F Addr : Type} [Float64 F]

/-- The part of `load` between reading the file and validating the result. -/
def parse (crates : Crates Scalar F Addr) (environment : Environment) (raw : Text) :
    Except (LoadError F Addr) (Config F) := do
  let interpolated ← (crates.expand environment raw).mapError .expansion
  let value ← (crates.toml interpolated).mapError .toml
  okOr (deserialize crates.scalars value) .unfit

def load [DecidableEq Addr] (crates : Crates Scalar F Addr)
    (readToString : Text → Except Text Text) (environment : Environment) (path : Text) :
    Except (LoadError F Addr) (Config F) := do
  let raw ← (readToString path).mapError (.unreadable path)
  let config ← parse crates environment raw
  (config.validate crates.parseAddr).mapError .invalid
  return config

end Config

/-- A text whose references are in comments and in basic strings that stand for values. -/
structure ConfigText where
  raw : Text
  symbols : Template VarName
  tokens : List (Token (Template VarName))
  scanned : scan raw = some symbols
  lexed : lex symbols = some tokens

/-- Every variable of the text is set to a value that needs no escape. -/
def ConfigText.Assigns (file : ConfigText) (environment : Environment) : Prop :=
  ∀ name ∈ file.symbols.holes, ∃ value ∈ environment name.text, Unescaped value

instance (file : ConfigText) (environment : Environment) : Decidable (file.Assigns environment) :=
  List.decidableBAll (fun name : VarName => ∃ value ∈ environment name.text, Unescaped value)
    file.symbols.holes

section Load

variable {Scalar F Addr : Type} [Float64 F] {crates : Crates Scalar F Addr} {file : ConfigText}
  {environment : Environment}

theorem ConfigText.Assigns.isSome (assigns : file.Assigns environment) :
    ∀ name ∈ file.symbols.holes, (environment name.text).isSome = true := by
  intro name member
  obtain ⟨value, found, -⟩ := assigns name member
  exact Option.isSome_iff_exists.mpr ⟨value, found⟩

end Load

section Sample

/-- A lawful choice of the crates, for files of simple lines. -/
def simpleCrates : Crates Unit ℝ Text where
  expand := expand
  toml := readDocument
  scalars := ⟨fun _ => none, fun _ => none, fun _ => none⟩
  parseAddr := some

theorem simpleCrates_lawful : simpleCrates.Lawful :=
  ⟨substitutes_expand, compositional_readDocument⟩

/-- A file with one label, whose value comes from the environment. -/
def labelFile (key : String) : Text :=
  "[provider]\n[model]\n[attribution]\n".toList ++ key.toList ++ " = \"$\x7bTEAM\x7d\"\n".toList

/-- The file as a text whose only reference is the value. -/
def labelText : ConfigText where
  raw := labelFile "team"
  symbols := (scan (labelFile "team")).get (by decide +kernel)
  tokens := (lex ((scan (labelFile "team")).get (by decide +kernel))).get (by decide +kernel)
  scanned := (Option.some_get _).symm
  lexed := (Option.some_get _).symm

end Sample

section Data

variable {Scalar F Addr : Type} [Float64 F]

end Data

end Sturnus

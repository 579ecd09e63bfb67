import Outline.Config.Codec
import Outline.Store

/-!
# Configuration files

* `Config.load` — the configuration in a file: the defaults if there is none or its text stands
  for no configuration;
* `Config.save` — a configuration written to a file;
* `ConfigFileError` — why a file cannot be read or written.
-/

namespace Outline

/-- Why a configuration file cannot be read or written. -/
inductive ConfigFileError where
  | unreadable (p : Path) (e : IoError)
  | unwritable (p : Path) (e : IoError)
deriving DecidableEq

def ConfigFileError.message : ConfigFileError → Text
  | .unreadable p e => "failed to read config: ".toList ++ p.display ++ ':' :: ' ' :: e.message
  | .unwritable p e => "failed to write config: ".toList ++ p.display ++ ':' :: ' ' :: e.message

namespace Config

/-- The configuration in a file. -/
def load (s : Store) (p : Path) : Except ConfigFileError Config :=
  if s.has p then
    match s.readText p with
    | .ok (t, _) => .ok ((read? t).getD standard)
    | .error e => .error (.unreadable p e)
  else .ok standard

/-- The store with a configuration written to a file. -/
def save (c : Config) (s : Store) (p : Path) : Except ConfigFileError Store :=
  match s.write p (Text.utf8 c.write) with
  | .ok s => .ok s
  | .error e => .error (.unwritable p e)

end Config

end Outline

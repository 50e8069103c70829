import CallChart.Diagram.Flowchart
import CallChart.Files.Disk
import CallChart.Toml.Reader

/-! Settings are read from a TOML file: one that is named, or else the nearest one at or above the
input. Where there is none, the standard settings apply. -/

namespace CallChart

structure Settings where
  style : Style := {}
  file : Option String := none

namespace Settings

def fileName : String := "paraflow.toml"

def change (style : Style) (name : String) (item : Toml.Item) : Option Style :=
  match name, item with
  | "direction", .string value => some { style with direction := value }
  | "direction", _ => none
  | "label_limit", .integer value => if 0 ≤ value then some { style with labelLimit := value.toNat } else none
  | "label_limit", _ => none
  | "ellipsis", .string value => some { style with ellipsis := value }
  | "ellipsis", _ => none
  | "mark_loop_back", .boolean value => some { style with dottedLoops := value }
  | "mark_loop_back", _ => none
  | _, _ => some style

def fieldNames : List String := ["direction", "label_limit", "ellipsis", "mark_loop_back"]

/-- The style that an item describes: a table of fields, or a list of them in order. What is left out
has its standard value. A date names no field. -/
def styleOf : Toml.Item → Option Style
  | .table _ members => members.foldlM (fun style member => change style member.1 member.2) {}
  | .array items | .tables items =>
    (fieldNames.zip items).foldlM (fun style field => change style field.1 field.2) {}
  | .date => some {}
  | _ => none

def ofText? (text : String) : Option Style := do
  match Toml.member? (← Toml.parse? text) "render" with
  | some item => styleOf item
  | none => some {}

variable {m : Type → Type} [Monad m] [Disk m]

def load (path : String) : Task m Settings := do
  let text ← Disk.context ("Cannot read config file " ++ path) (Disk.readText path)
  match ofText? text with
  | some style => return { style, file := some path }
  | none => throw { contexts := ["Invalid config file " ++ path], cause := .toml }

/-- Reads the first settings file in the given directories. -/
def search : List String → Task m Settings
  | [] => return {}
  | directory :: rest => do
    let path := Path.join directory fileName
    if ← Disk.isFile (m := m) path then load path else search rest

def discover (start : String) : Task m Settings := do
  let directories := Path.ancestors start
  if ← Disk.isFile (m := m) start then search (directories.drop 1) else search directories

/-- The settings that apply: those of the named file, or else the nearest to the input. -/
def resolve (explicit input : Option String) : Task m Settings :=
  match explicit, input with
  | some path, _ => load path
  | none, some input => discover input
  | none, none => return {}

end Settings

end CallChart

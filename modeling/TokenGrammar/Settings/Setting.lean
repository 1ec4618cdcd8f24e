import TokenGrammar.Entries
import TokenGrammar.Number.Binary64
import TokenGrammar.Toml.Value

namespace TokenGrammar

/-- A setting, or a group of settings. -/
inductive Setting where
  | nothing
  | bool (value : Bool)
  | integer (value : Int)
  | float (value : Binary64)
  | string (value : String)
  | array (items : List Setting)
  | table (entries : List (String × Setting))

namespace Setting

instance : Inhabited Setting := ⟨nothing⟩

/-- What a setting holds by name. -/
def entries : Setting → List (String × Setting)
  | table entries => entries
  | _ => []

/-- What a setting holds by position. -/
def items : Setting → List Setting
  | array items => items
  | _ => []

mutual

/-- Puts a setting under a key. A table is merged into what the key holds, anything else takes
its place. -/
def insert (target : Setting) (key : String) : Setting → Setting
  | table more =>
    let held := (target.entries.lookup key).getD (table [])
    table (Entries.put key (merge held more) target.entries)
  | value => table (Entries.put key value target.entries)

/-- Puts entries into a setting. If there are any, it becomes a table. -/
def merge (target : Setting) : List (String × Setting) → Setting
  | [] => target
  | (key, value) :: rest => merge (target.insert key value) rest

end

mutual

def ofToml : Toml.Value → Setting
  | .bool value => bool value
  | .integer value => integer value
  | .float value => float value
  | .string value => string value
  | .moment text => string text
  | .array items => array (ofTomlItems items)
  | .tables earlier last => array (ofTomlItems earlier ++ [ofToml last])
  | .table _ entries => table (ofTomlEntries entries)

def ofTomlItems : List Toml.Value → List Setting
  | [] => []
  | value :: rest => ofToml value :: ofTomlItems rest

def ofTomlEntries : List (String × Toml.Value) → List (String × Setting)
  | [] => []
  | (key, value) :: rest => (key, ofToml value) :: ofTomlEntries rest

end

end Setting
end TokenGrammar

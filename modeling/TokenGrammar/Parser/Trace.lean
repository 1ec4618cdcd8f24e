import TokenGrammar.Parser.Basic

namespace TokenGrammar

/-! The log of a parse: a line where a rule begins and one where it ends, indented by two
columns for each rule around it. -/

namespace Trace

def enterLine (depth : Nat) (rule : String) (pos : Nat) : String :=
  "".pushn ' ' (2 * depth) ++ "> " ++ rule ++ " at #" ++ toString pos

def leaveLine (depth : Nat) (rule : String) (matched : Bool) (pos : Nat) : String :=
  "".pushn ' ' (2 * depth) ++ "< " ++ rule ++ (if matched then " matched" else " failed")
    ++ " at #" ++ toString pos

/-- How many rules are open after a journal, if `depth` were open before. -/
def depthAfter (depth : Nat) (journal : List Event) : Nat :=
  journal.foldl (fun depth event =>
    match event with
    | .failure _ => depth
    | .enter _ _ => depth + 1
    | .leave _ _ _ => depth - 1) depth

/-- The lines of a journal, with `depth` rules open before it. -/
def lines : Nat → List Event → List String
  | _, [] => []
  | depth, .failure _ :: rest => lines depth rest
  | depth, .enter rule pos :: rest => enterLine depth rule pos :: lines (depth + 1) rest
  | depth, .leave rule matched pos :: rest =>
    leaveLine (depth - 1) rule matched pos :: lines (depth - 1) rest

end Trace
end TokenGrammar

/-
# Trees of files

A node is a file, a device, or a directory of named nodes.  `find?` follows names down from a
node, and `put` says what they lead to from now on:

* `find?_put_self`: the names lead to what was put there;
* `find?_put_of_apart`: names that part from them on the way lead to what they led to before.
-/
import TraceRecorder.Dict
import TraceRecorder.Tape

namespace TraceRecorder

/-- What can have a name. -/
inductive Node where
  | file (content : Tape)
  /-- Takes all bytes and keeps none. -/
  | device
  | directory (entries : List (String × Node))

namespace Node

def empty : Node := directory []

/-- What is in a directory, by ascending name.  There is nothing in anything else. -/
def entries : Node → Dict String Node
  | directory entries => entries
  | _ => []

/-- The bytes of a file.  There are none in anything else. -/
def content : Node → Tape
  | file content => content
  | _ => .empty

/-- **What some names lead to**, one after the other. -/
def find? (n : Node) : List String → Option Node
  | [] => some n
  | name :: rest => (Dict.find? n.entries name).bind fun m => find? m rest

/-- **The node with `new` where some names lead.**  What is missing on the way is a directory
then. -/
def put (n new : Node) : List String → Node
  | [] => new
  | name :: rest =>
    directory (Dict.insert n.entries name
      (put ((Dict.find? n.entries name).getD empty) new rest))

@[simp] theorem entries_directory (es : Dict String Node) : (directory es).entries = es := rfl

theorem find?_cons (n : Node) (name : String) (rest : List String) :
    n.find? (name :: rest) = (Dict.find? n.entries name).bind (·.find? rest) := rfl

theorem put_cons (n new : Node) (name : String) (rest : List String) :
    n.put new (name :: rest) = directory (Dict.insert n.entries name
      (((Dict.find? n.entries name).getD empty).put new rest)) := rfl

theorem find?_empty {names : List String} (h : names ≠ []) : empty.find? names = none := by
  cases names with
  | nil => exact absurd rfl h
  | cons name rest => rfl

theorem find?_put_self (n new : Node) (names : List String) :
    (n.put new names).find? names = some new := by
  induction names generalizing n with
  | nil => rfl
  | cons name rest ih => simp [put_cons, find?_cons, ih]

theorem find?_put_of_apart (n new : Node) {names other : List String}
    (h : ¬ names <+: other) (h' : ¬ other <+: names) :
    (n.put new names).find? other = n.find? other := by
  induction names generalizing n other with
  | nil => exact absurd List.nil_prefix h
  | cons name rest ih =>
    cases other with
    | nil => exact absurd List.nil_prefix h'
    | cons first others =>
      rw [put_cons, find?_cons, find?_cons, entries_directory]
      by_cases hn : first = name
      · subst hn
        have hr : ¬ rest <+: others := fun p => h (List.cons_prefix_cons.2 ⟨rfl, p⟩)
        have hr' : ¬ others <+: rest := fun p => h' (List.cons_prefix_cons.2 ⟨rfl, p⟩)
        rw [Dict.find?_insert_self, Option.bind_some, ih _ hr hr']
        cases Dict.find? n.entries first with
        | some m => rfl
        | none => exact find?_empty fun hnil => hr' (hnil ▸ List.nil_prefix)
      · rw [Dict.find?_insert_of_ne _ _ hn]

end Node

end TraceRecorder

import ComputePlane.Cloud.Memory

/-!
# Rules in front of a cloud

A rule holds up the calls of a name, makes them fail or answers them in place of the cloud. Every
call is written down with the time at which it is made, whether it reaches the cloud or not.
-/

namespace ComputePlane

open Number

/-- What happens to calls of a name from the `first` to the `last` one. A rule that fails or answers
lets a call through to the cloud only with `passOn`, and drops the cloud's answer then. -/
structure Rule where
  call : String
  first : Nat := 1
  last : Option Nat := none
  delay : Nat := 0
  failure : Option Error := none
  reply : Option Json := none
  passOn : Bool := false
  deriving Repr

/-- A rule is for the `n`-th call of a name. -/
def Rule.covers (r : Rule) (name : String) (n : Nat) : Bool :=
  r.call = name && r.first ≤ n && r.last.all (n ≤ ·)

/-- A line of the record of calls. -/
structure LogLine where
  time : Nat
  call : Call
  deriving Repr

/-- A cloud with the rules in front of it, the number of calls of each name and their record. -/
structure Backend where
  cloud : MemoryCloud := {}
  rules : List Rule := []
  counts : List (String × Nat) := []
  log : List LogLine := []
  deriving Repr

/-- A call that has been made: when it gets its answer, and the rule that it fell under. -/
structure Pending where
  due : Nat
  rule : Option Rule
  deriving Repr

namespace Backend

/-- Makes a call. -/
def arrive (b : Backend) (now : Nat) (c : Call) : Pending × Backend :=
  let counts := MemoryCloud.bump c.name b.counts
  let n := (counts.lookup c.name).getD 0
  let rule := b.rules.find? (·.covers c.name n)
  (⟨now + (rule.map (·.delay)).getD 0, rule⟩,
    { b with counts := counts, log := b.log ++ [⟨now, c⟩] })

/-- Passes a call on to the cloud. -/
def pass (b : Backend) (c : Call) : c.Result × Backend :=
  let (r, cloud) := b.cloud.call c
  (r, { b with cloud := cloud })

/-- The answer that a rule gives in place of the cloud, if it does. -/
def override? (c : Call) (rule : Option Rule) : Option c.Result := do
  let r ← rule
  match r.failure, r.reply with
  | some e, _ => some (.error e)
  | none, some j =>
    match c.decoder j with
    | .ok a => some (.ok a)
    | .error _ => some (.error .request)
  | none, none => none

/-- A call reaches the cloud. -/
def reaches (c : Call) (rule : Option Rule) : Bool :=
  (override? c rule).isNone || (rule.map (·.passOn)).getD false

/-- The answer of a call that is due, nothing coming between. -/
def settle (b : Backend) (c : Call) (p : Pending) : c.Result × Backend :=
  if reaches c p.rule then
    let (r, b) := b.pass c
    ((override? c p.rule).getD r, b)
  else ((override? c p.rule).getD (.error .request), b)

end Backend

end ComputePlane

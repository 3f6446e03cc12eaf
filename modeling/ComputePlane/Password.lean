/-!
# Generated passwords

A password has twelve characters out of three pools without look-alikes, and at least one of each
pool. All choices are drawn from a stream of numbers, so every password that can come out has its
stream.
-/

namespace ComputePlane

/-- A stream of random numbers. -/
abbrev Draws := Nat → Nat

/-- The numbers after the first `n`. -/
def Draws.after (draws : Draws) (n : Nat) : Draws := fun i => draws (n + i)

namespace Password

/-! ## Pools -/

def smallLetters : List Char := "abcdefghijkmnopqrstuvwxyz".toList

def capitals : List Char := "ABCDEFGHJKLMNPQRSTUVWXYZ".toList

def numerals : List Char := "23456789".toList

def pools : List (List Char) := [smallLetters, capitals, numerals]

def length : Nat := 12

/-- Twelve characters of the pools, with one of each pool among them. -/
def wellFormed (s : String) : Bool :=
  s.length == length && s.toList.all (fun c => pools.any (·.contains c)) &&
    pools.all fun pool => s.toList.any (pool.contains ·)

/-! ## Choices -/

/-- The item that a number chooses, if there is any. -/
def choose? {α : Type} (xs : List α) (draw : Nat) : Option α :=
  xs[draw % xs.length]?

/-- One character of each pool. -/
def seeds (draws : Draws) : List Char :=
  pools.zipIdx.filterMap fun (pool, i) => choose? pool (draws i)

/-- The characters with one more of a chosen pool, if it has any. -/
def turn (draws : Draws) (chars : List Char) : List Char :=
  chars ++ ((choose? pools (draws 0)).bind (choose? · (draws 1))).toList

theorem exists_choose? {α : Type} {xs : List α} (h : xs ≠ []) (draw : Nat) :
    ∃ x ∈ xs, choose? xs draw = some x := by
  have hlt : draw % xs.length < xs.length := Nat.mod_lt _ (List.length_pos_iff.mpr h)
  exact ⟨_, List.getElem_mem hlt, List.getElem?_eq_getElem hlt⟩

theorem pools_ne_nil : pools ≠ [] :=
  List.cons_ne_nil _ _

theorem ne_nil_of_mem_pools : ∀ pool ∈ pools, pool ≠ [] := by decide

/-- No pool is empty, so each turn adds a character. -/
theorem exists_turn (draws : Draws) (chars : List Char) :
    ∃ pool ∈ pools, ∃ c ∈ pool, turn draws chars = chars ++ [c] := by
  obtain ⟨pool, hpool, hchoose⟩ := exists_choose? pools_ne_nil (draws 0)
  obtain ⟨c, hc, hchar⟩ := exists_choose? (ne_nil_of_mem_pools pool hpool) (draws 1)
  exact ⟨pool, hpool, c, hc, by rw [turn, hchoose, Option.bind_some, hchar, Option.toList_some]⟩

theorem length_turn (draws : Draws) (chars : List Char) :
    (turn draws chars).length = chars.length + 1 := by
  obtain ⟨_, _, _, _, hturn⟩ := exists_turn draws chars
  rw [hturn, List.length_append, List.length_singleton]

/-- The characters with more of them, turn by turn, until there are enough. -/
def fill (draws : Draws) (chars : List Char) : List Char :=
  if chars.length < length then fill (draws.after 2) (turn draws chars) else chars
termination_by length - chars.length
decreasing_by
  rw [length_turn]
  omega

/-- The characters of a password in the order in which they are drawn. -/
def drawn (draws : Draws) : List Char :=
  fill (draws.after 3) (seeds draws)

/-- The items in a chosen order: each is chosen out of those left. -/
def shuffle {α : Type} (draws : Draws) : List α → List α
  | [] => []
  | x :: xs =>
    let i := draws 0 % (xs.length + 1)
    have hi : i < (x :: xs).length := Nat.mod_lt _ (Nat.succ_pos _)
    (x :: xs)[i] :: shuffle (draws.after 1) ((x :: xs).eraseIdx i)
termination_by xs => xs.length
decreasing_by
  rw [List.length_eraseIdx_of_lt hi]
  exact Nat.lt_succ_self _

def generate (draws : Draws) : String :=
  String.ofList (shuffle (draws.after 21) (drawn draws))

end Password

end ComputePlane

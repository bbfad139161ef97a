/-
The order of values, and sorting by it.

Numbers are compared by size, whole or not, and yes counts as one.  Texts are compared
by their characters, lists by the first items that differ.  Values of other kinds, and
values of different kinds, have no order.  Since a comparison may have no result, a
list is sorted with as few of them as possible: a run at its head is kept or turned
round, and every further element is put in its place by halving.  Which comparisons
are made decides whether one without a result is met.

Main definitions:
* `Json.below?` — one value stands before another, where they have an order;
* `Order.sort` — sorting by comparisons that may fail.
-/
import BuildDesk.Number.Quantity
import BuildDesk.Text.Order

namespace BuildDesk

namespace Quantity

/-- The size of a double compared with a whole number. -/
def compareWhole (x : Float) (n : Int) : Option Ordering :=
  if x.isNaN then none
  else if x.isInf then some (if x < 0 then .lt else .gt)
  else
    let below := Number.floorOf x
    if below != n then some (compare below n)
    else some (if Number.scaled below 0 == x then .eq else .gt)

/-- Compares two numbers without rounding; nothing when one of them is no number. -/
def compare? : Quantity → Quantity → Option Ordering
  | whole m, whole n => some (compare m n)
  | real x, whole n => compareWhole x n
  | whole m, real y => (compareWhole y m).map Ordering.swap
  | real x, real y => if x < y then some .lt else if y < x then some .gt
    else if x == y then some .eq else none

end Quantity

namespace Json

mutual

/-- Two values are the same, number for number by size. -/
def same : Json → Json → Bool
  | null, null => true
  | str s, str t => s == t
  | list xs, list ys => sameItems xs ys
  | object ms, object ns => ms.length == ns.length && sameMembers ms ns
  | v, w =>
    match Quantity.ofJson? v, Quantity.ofJson? w with
    | some p, some q => p.compare? q == some .eq
    | _, _ => false

/-- Two items of lists are the same; what is no number is the same as itself there. -/
def sameItem : Json → Json → Bool
  | float x, float y => x == y || (x.isNaN && y.isNaN)
  | v, w => same v w

/-- Lists with the same items. -/
def sameItems : List Json → List Json → Bool
  | [], [] => true
  | x :: xs, y :: ys => sameItem x y && sameItems xs ys
  | _, _ => false

/-- Every member is among others, under the same name. -/
def sameMembers : List (String × Json) → List (String × Json) → Bool
  | [], _ => true
  | (name, v) :: ms, others =>
    (match others.lookup name with
      | some w => sameItem v w
      | none => false)
    && sameMembers ms others

end

mutual

/-- One value stands before another; nothing when they have no order. -/
def below? : Json → Json → Option Bool
  | str s, str t => some (Text.isBefore s t)
  | list xs, list ys => belowItems? xs ys
  | v, w =>
    match Quantity.ofJson? v, Quantity.ofJson? w with
    | some p, some q => some (p.compare? q == some .lt)
    | _, _ => none

/-- One list stands before another: by the first items that differ, and else the
shorter one. -/
def belowItems? : List Json → List Json → Option Bool
  | [], ys => some (!ys.isEmpty)
  | _ :: _, [] => some false
  | x :: xs, y :: ys => if sameItem x y then belowItems? xs ys else below? x y

end

end Json

namespace Order

variable {α ε : Type}

/-- The elements after the first that go on in one direction, each below the one before
it or none, and what is left after them. -/
def goOn (below : α → α → Except ε Bool) (falling : Bool) :
    α → List α → Except ε (List α × List α)
  | _, [] => .ok ([], [])
  | x, y :: rest => do
    if (← below y x) == falling then
      let (run, left) ← goOn below falling y rest
      pure (y :: run, left)
    else pure ([], y :: rest)

/-- The place of an element among sorted ones, from `low` to `high`: behind those that
it is not below. -/
def place (below : α → α → Except ε Bool) (x : α) (sorted : Array α) (low high : Nat) :
    Except ε Nat :=
  if low < high then
    let middle := low + (high - low) / 2
    match sorted[middle]? with
    | none => .ok low
    | some y => do
      if ← below x y then place below x sorted low middle
      else place below x sorted (middle + 1) high
  else .ok low
termination_by high - low

/-- Puts elements in their places among sorted ones. -/
def insertAll (below : α → α → Except ε Bool) : Array α → List α → Except ε (Array α)
  | sorted, [] => .ok sorted
  | sorted, x :: rest => do
    let i ← place below x sorted 0 sorted.size
    insertAll below (sorted.insertIdxIfInBounds i x) rest

/-- The elements in order.  Elements of which none is below the other keep their order. -/
def sort (below : α → α → Except ε Bool) : List α → Except ε (List α)
  | x :: y :: rest => do
    let falling ← below y x
    let (run, left) ← goOn below falling y rest
    let head := x :: y :: run
    let sorted ← insertAll below (if falling then head.reverse else head).toArray left
    pure sorted.toList
  | few => .ok few

end Order
end BuildDesk

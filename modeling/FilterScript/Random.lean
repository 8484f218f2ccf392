import FilterScript.Number.Single

/-
The random stream of a script.

Runs are compared byte for byte, so the law of selection is part of the contract.  A seed fixes a
stream of sixty-four-bit words; every draw uses up exactly one of them, whatever it is for; and an
index below `n` is the draw `r` scaled to `r * n / 2 ^ 64`.  There is no rejection.
-/
namespace FilterScript

/-- A permuted congruential generator: the state and the odd increment are numbers of one hundred
and twenty-eight bits. -/
structure Generator where
  state : Nat
  increment : Nat
deriving DecidableEq, Repr

namespace Generator

private def modulus : Nat := 2 ^ 128

/-- The factor by which the state moves on. -/
def multiplier : Nat := 0x2360ED051FC65DA44385DF649FCCF645

/-- The generator after one step. -/
def next (g : Generator) : Generator :=
  { g with state := (g.state * multiplier + g.increment) % modulus }

/-- The word that a state shows: its halves combined, turned right by its top six bits. -/
def output (g : Generator) : Nat :=
  let word := (g.state / 2 ^ 64) ^^^ (g.state % 2 ^ 64)
  let turn := g.state / 2 ^ 122
  (word / 2 ^ turn + word * 2 ^ (64 - turn)) % 2 ^ 64

/-! ### Seeding

A seed of sixty-four bits is spread over eight words of thirty-two by a smaller generator. -/

private def spread (s : Nat) : Nat := (s * 6364136223846793005 + 11634580027462260723) % 2 ^ 64

private def spreadWord (s : Nat) : Nat :=
  let x := ((s / 2 ^ 18) ^^^ s) / 2 ^ 27 % 2 ^ 32
  let turn := s / 2 ^ 59
  (x / 2 ^ turn + x * 2 ^ (32 - turn)) % 2 ^ 32

private def spreadWords : Nat → Nat → List Nat
  | 0, _ => []
  | k + 1, s => spreadWord (spread s) :: spreadWords k (spread s)

private def littleEndian : List Nat → Nat
  | [] => 0
  | w :: ws => w + 2 ^ 32 * littleEndian ws

/-- The generator of a seed. -/
def ofSeed (seed : UInt64) : Generator :=
  let words := spreadWords 8 seed.toNat
  let state := littleEndian (words.take 4)
  let increment := littleEndian (words.drop 4) ||| 1
  next ⟨(state + increment) % modulus, increment⟩

/-- The generator after `k` steps. -/
def steps : Nat → Generator → Generator
  | 0, g => g
  | k + 1, g => steps k g.next

/-- The word of number `k` of a seed's stream, counted from one. -/
def word (seed : UInt64) (k : Nat) : Nat := ((ofSeed seed).steps k).output

end Generator

/-- A stream, and how many draws were taken from it. -/
structure Random where
  draws : Nat
  generator : Generator
deriving DecidableEq, Repr

namespace Random

/-- The stream of a seed from its start. -/
def ofSeed (seed : UInt64) : Random := ⟨0, .ofSeed seed⟩

/-- The stream with which every run starts. -/
def initial : Random := ofSeed 0

/-- One draw. -/
def draw (r : Random) : Nat × Random :=
  let g := r.generator.next
  (g.output, ⟨r.draws + 1, g⟩)

/-- The index below `n` that a drawn word selects. -/
def select (word n : Nat) : Nat := word * n / 2 ^ 64

/-- Draws an index below `n`.  When there is none, nothing is drawn. -/
def index (r : Random) (n : Nat) : Option Nat × Random :=
  if n = 0 then (none, r)
  else
    let (word, r) := r.draw
    (some (select word n), r)

/-- Draws one of the items of a list. -/
def choose {α : Type} (r : Random) (items : List α) : Option α × Random :=
  let (i, r) := r.index items.length
  (i.bind (items[·]?), r)

/-- The number from zero up to one that a drawn word gives: its top twenty-four bits. -/
def unit (word : Nat) : Single := Single.ofRatio false (word / 2 ^ 40) (2 ^ 24)

/-- Draws a number from zero up to one. -/
def number (r : Random) : Single × Random :=
  let (word, r) := r.draw
  (unit word, r)

end Random

end FilterScript

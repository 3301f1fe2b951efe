import PushLang.Error
import PushLang.Random.Source

/-! Seeded draws, from the key stream of the ChaCha cipher with eight rounds. Blocks of sixteen
words, numbered from zero, make one stream of words; a seed fixes the key. -/

namespace PushLang

/-- The place in a key stream: the words of the current block not yet handed out, and the number of
the next block. -/
structure Stream where
  key : Vector UInt32 8
  block : UInt64 := 0
  words : List UInt32 := []

namespace Stream

/-- The state of a block under work. -/
abbrev Block := Vector UInt32 16

def rotateLeft (word : UInt32) (count : UInt32) : UInt32 := word <<< count ||| word >>> (32 - count)

/-- Mixes four words of a block. -/
def quarterRound (a b c d : Fin 16) (block : Block) : Block :=
  let mix (target source third : Fin 16) (count : UInt32) (block : Block) : Block :=
    let block := block.set target (block[target] + block[source])
    block.set third (rotateLeft (block[third] ^^^ block[target]) count)
  block |> mix a b d 16 |> mix c d b 12 |> mix a b d 8 |> mix c d b 7

def doubleRound (block : Block) : Block :=
  block |> quarterRound 0 4 8 12 |> quarterRound 1 5 9 13
    |> quarterRound 2 6 10 14 |> quarterRound 3 7 11 15
    |> quarterRound 0 5 10 15 |> quarterRound 1 6 11 12
    |> quarterRound 2 7 8 13 |> quarterRound 3 4 9 14

/-- The words of the block with a number. -/
def blockWords (key : Vector UInt32 8) (number : UInt64) : List UInt32 :=
  let start : Block :=
    #v[0x61707865, 0x3320646E, 0x79622D32, 0x6B206574, key[0], key[1], key[2], key[3], key[4],
      key[5], key[6], key[7], number.toUInt32, (number >>> 32).toUInt32, 0, 0]
  let mixed := start |> doubleRound |> doubleRound |> doubleRound |> doubleRound
  List.zipWith (· + ·) mixed.toList start.toList

def word (stream : Stream) : UInt32 × Stream :=
  match stream.words with
  | first :: rest => (first, { stream with words := rest })
  | [] => match blockWords stream.key stream.block with
    | first :: rest => (first, { stream with block := stream.block + 1, words := rest })
    | [] => (0, stream)

def doubleWord (stream : Stream) : UInt64 × Stream :=
  let (low, stream) := stream.word
  let (high, stream) := stream.word
  (high.toUInt64 <<< 32 ||| low.toUInt64, stream)

/-- The key words of a seed: a linear congruential sequence, each state folded to 32 bits and
rotated by its top bits. -/
def keyWords : Nat → UInt64 → List UInt32
  | 0, _ => []
  | count + 1, state =>
    let state := state * 6364136223846793005 + 11634580027462260723
    let folded := ((state >>> 18 ^^^ state) >>> 27).toUInt32
    let turn := (state >>> 59).toUInt32
    (folded >>> turn ||| folded <<< ((32 - turn) % 32)) :: keyWords count state

theorem length_keyWords (count : Nat) (state : UInt64) : (keyWords count state).length = count := by
  induction count generalizing state with
  | zero => rfl
  | succ count ih => simp [keyWords, ih]

def ofSeed (seed : UInt64) : Stream :=
  { key := ⟨(keyWords 8 seed).toArray, by simp [length_keyWords]⟩ }

/-- Draws 64 bits until their product with the bound leaves a low half inside the largest whole
number of ranges; the high half is the answer. A draw is refused with a chance below one half, and
the tries are limited. -/
def belowWithin (bound : Nat) : Nat → Stream → Nat × Stream
  | 0, stream => (0, stream)
  | tries + 1, stream =>
    let (bits, stream) := stream.doubleWord
    let product := bits.toNat * bound
    let zone := bound <<< (63 - bound.log2) - 1
    if product % UInt64.size ≤ zone then (product / UInt64.size, stream)
    else belowWithin bound tries stream

def below? (bound : Nat) (stream : Stream) : Except Fault (Nat × Stream) :=
  if bound = 0 then .error .emptyRange else .ok (belowWithin bound 1024 stream)

/-- The top 24 bits of a word, as a fraction. -/
def nextUnit (stream : Stream) : Binary32 × Stream :=
  let (bits, stream) := stream.word
  (Binary32.ofMagnitude false (Binary32.nearest (bits >>> 8).toNat (1 <<< 24)), stream)

private theorem belowWithin_lt (bound : Nat) (positive : 0 < bound) (tries : Nat)
    (stream : Stream) :
    (belowWithin bound tries stream).1 < bound := by
  induction tries generalizing stream with
  | zero => simpa [belowWithin]
  | succ tries ih =>
    simp only [belowWithin]
    split
    · have small := UInt64.toNat_lt stream.doubleWord.1
      exact Nat.div_lt_of_lt_mul (Nat.mul_lt_mul_of_pos_right small positive)
    · exact ih _

instance : RandomSource Stream where
  below bound := belowWithin bound 1024
  unit := nextUnit
  below_lt bound stream positive := belowWithin_lt bound positive 1024 stream

end Stream

end PushLang

/-! Reproducible random choices: a stream of 32-bit words that a 64-bit seed
determines. The words are those of the ChaCha stream cipher with twelve rounds
under a key that a linear congruential generator draws from the seed. -/
namespace TokenGame

/-- A position in the stream of a key. -/
structure Random where
  key : Vector UInt32 8
  /-- How many words were taken. -/
  drawn : Nat := 0
  deriving DecidableEq, Repr

namespace Random

/-! ### The key of a seed -/

def nextSeed (s : UInt64) : UInt64 := s * 6364136223846793005 + 11634580027462260723

def rotateRight (x : UInt32) (n : UInt32) : UInt32 :=
  (x >>> (n % 32)) ||| (x <<< ((32 - n % 32) % 32))

/-- The word that a generator state shows: some of its middle bits, rotated by
its top five. -/
def seedWord (s : UInt64) : UInt32 :=
  rotateRight ((((s >>> 18) ^^^ s) >>> 27).toUInt32) (s >>> 59).toUInt32

/-- The generator state after some steps. -/
def seedState (seed : UInt64) : Nat → UInt64
  | 0 => seed
  | n + 1 => nextSeed (seedState seed n)

def keyOfSeed (seed : UInt64) : Vector UInt32 8 :=
  Vector.ofFn fun i => seedWord (seedState seed (i.val + 1))

/-! ### The stream of a key -/

abbrev Block := Vector UInt32 16

def rotateLeft (x : UInt32) (n : UInt32) : UInt32 := (x <<< n) ||| (x >>> (32 - n))

def quarterRound (a b c d : Fin 16) (x : Block) : Block :=
  let x := x.set a (x[a] + x[b])
  let x := x.set d (rotateLeft (x[d] ^^^ x[a]) 16)
  let x := x.set c (x[c] + x[d])
  let x := x.set b (rotateLeft (x[b] ^^^ x[c]) 12)
  let x := x.set a (x[a] + x[b])
  let x := x.set d (rotateLeft (x[d] ^^^ x[a]) 8)
  let x := x.set c (x[c] + x[d])
  x.set b (rotateLeft (x[b] ^^^ x[c]) 7)

/-- One round on the columns of the block and one on its diagonals. -/
def doubleRound (x : Block) : Block :=
  let x := quarterRound 0 4 8 12 x
  let x := quarterRound 1 5 9 13 x
  let x := quarterRound 2 6 10 14 x
  let x := quarterRound 3 7 11 15 x
  let x := quarterRound 0 5 10 15 x
  let x := quarterRound 1 6 11 12 x
  let x := quarterRound 2 7 8 13 x
  quarterRound 3 4 9 14 x

def rounds : Nat → Block → Block
  | 0, x => x
  | n + 1, x => rounds n (doubleRound x)

/-- The text "expand 32-byte k", four bytes to a word. -/
def constants : Vector UInt32 4 := #v[0x61707865, 0x3320646e, 0x79622d32, 0x6b206574]

/-- The input of a block: four constants, the key, a 64-bit block number with its
low half first, and a nonce of zero. -/
def blockInput (key : Vector UInt32 8) (number : UInt64) : Block :=
  (constants ++ key) ++ #v[number.toUInt32, (number >>> 32).toUInt32, 0, 0]

def block (key : Vector UInt32 8) (number : UInt64) : Block :=
  let input := blockInput key number
  Vector.zipWith (· + ·) (rounds 6 input) input

/-- A word of the stream by its position. -/
def word (key : Vector UInt32 8) (position : Nat) : UInt32 :=
  (block key (position / 16).toUInt64).get ⟨position % 16, Nat.mod_lt _ (by decide)⟩

/-! ### Drawing -/

def ofSeed (seed : UInt64) : Random := { key := keyOfSeed seed }

def next (r : Random) : UInt32 × Random := (word r.key r.drawn, { r with drawn := r.drawn + 1 })

/-- A number below `n`: the high half of a word times `n`. Where the low half says
that a longer fraction might carry into it, one more word decides. -/
def below (r : Random) (n : Nat) : Nat × Random :=
  let (first, r) := r.next
  let product := first.toNat * n
  let high := product / UInt32.size
  let low := product % UInt32.size
  if UInt32.size - n < low then
    let (second, r) := r.next
    let carry := (low + second.toNat * n / UInt32.size) / UInt32.size
    (high + carry, r)
  else (high, r)

end Random

end TokenGame

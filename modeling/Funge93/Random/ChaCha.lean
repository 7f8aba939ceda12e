/-!
# A stream of random words

The words behind a seeded run are the keystream of the ChaCha cipher with twelve
rounds. The seed is stretched to the key by a congruential generator whose states
are permuted before use. The block counter starts at zero and has 64 bits, and
the nonce is zero. A word of 64 bits takes two neighbouring words of a block,
the low half first.

Nothing is kept between words: each is a function of the key and of its index in
the stream, so two readers of the same seed agree on every word, whatever each
of them has read before.
-/

namespace Funge93.Random.ChaCha

/-- The words of a block, and the words of the state behind one. -/
abbrev Block := Vector UInt32 16

/-- The words that a keystream is made from. -/
abbrev Key := Vector UInt32 8

/-- The bits of a word moved up by a number between 1 and 31; those that leave at
the top come back at the bottom. -/
def rotateUp (w n : UInt32) : UInt32 :=
  (w <<< n) ||| (w >>> (32 - n))

/-- Mixes four words of a block. -/
def quarterRound (a b c d : Fin 16) (s : Block) : Block :=
  let wa := s[a] + s[b]
  let wd := rotateUp (s[d] ^^^ wa) 16
  let wc := s[c] + wd
  let wb := rotateUp (s[b] ^^^ wc) 12
  let wa := wa + wb
  let wd := rotateUp (wd ^^^ wa) 8
  let wc := wc + wd
  let wb := rotateUp (wb ^^^ wc) 7
  (((s.set a.val wa a.isLt).set b.val wb b.isLt).set c.val wc c.isLt).set d.val wd d.isLt

/-- Mixes the columns of a block and then its diagonals: two rounds. -/
def doubleRound (s : Block) : Block :=
  let s := quarterRound 0 4 8 12 s
  let s := quarterRound 1 5 9 13 s
  let s := quarterRound 2 6 10 14 s
  let s := quarterRound 3 7 11 15 s
  let s := quarterRound 0 5 10 15 s
  let s := quarterRound 1 6 11 12 s
  let s := quarterRound 2 7 8 13 s
  quarterRound 3 4 9 14 s

/-- As many double rounds as told. -/
def mix : Nat → Block → Block
  | 0, s => s
  | n + 1, s => mix n (doubleRound s)

/-- The state that a block is made from: four constants, the key, the counter and
the zero nonce. -/
def start (key : Key) (counter : UInt64) : Block :=
  #v[0x61707865, 0x3320646E, 0x79622D32, 0x6B206574,
    key[0], key[1], key[2], key[3], key[4], key[5], key[6], key[7],
    counter.toUInt32, (counter >>> 32).toUInt32, 0, 0]

/-- A block of the keystream. -/
def block (key : Key) (counter : UInt64) : Block :=
  let s := start key counter
  Vector.zipWith (· + ·) (mix 6 s) s

/-- A word of the keystream, by its index. -/
def word (key : Key) (index : Nat) : UInt64 :=
  let b := block key (UInt64.ofNat (index / 8))
  let low := b[2 * (index % 8)]
  let high := b[2 * (index % 8) + 1]
  low.toUInt64 ||| (high.toUInt64 <<< 32)

/-- The state of the congruential generator after some steps. -/
def seedState (seed : UInt64) : Nat → UInt64
  | 0 => seed
  | n + 1 => seedState seed n * 6364136223846793005 + 11634580027462260723

/-- The key word that a state gives: its high bits are folded down and rotated by
the number in the topmost five. -/
def seedWord (state : UInt64) : UInt32 :=
  let w := (((state >>> 18) ^^^ state) >>> 27).toUInt32
  let n := (state >>> 59).toUInt32
  (w >>> n) ||| (w <<< ((32 - n) % 32))

/-- The key that a seed is stretched to. -/
def key (seed : UInt64) : Key :=
  Vector.ofFn fun i => seedWord (seedState seed (i.val + 1))

end Funge93.Random.ChaCha

import AfroPay.IntegerText

/-! SHA-256 over byte lists: padding to whole blocks, the message schedule, sixty-four rounds a
block, and the eight words of the state as the digest. -/
namespace AfroPay.Sha256
open IntegerText

/-- The round constants. -/
def constants : List UInt32 :=
  [ 0x428a2f98, 0x71374491, 0xb5c0fbcf, 0xe9b5dba5, 0x3956c25b, 0x59f111f1, 0x923f82a4, 0xab1c5ed5,
    0xd807aa98, 0x12835b01, 0x243185be, 0x550c7dc3, 0x72be5d74, 0x80deb1fe, 0x9bdc06a7, 0xc19bf174,
    0xe49b69c1, 0xefbe4786, 0x0fc19dc6, 0x240ca1cc, 0x2de92c6f, 0x4a7484aa, 0x5cb0a9dc, 0x76f988da,
    0x983e5152, 0xa831c66d, 0xb00327c8, 0xbf597fc7, 0xc6e00bf3, 0xd5a79147, 0x06ca6351, 0x14292967,
    0x27b70a85, 0x2e1b2138, 0x4d2c6dfc, 0x53380d13, 0x650a7354, 0x766a0abb, 0x81c2c92e, 0x92722c85,
    0xa2bfe8a1, 0xa81a664b, 0xc24b8b70, 0xc76c51a3, 0xd192e819, 0xd6990624, 0xf40e3585, 0x106aa070,
    0x19a4c116, 0x1e376c08, 0x2748774c, 0x34b0bcb5, 0x391c0cb3, 0x4ed8aa4a, 0x5b9cca4f, 0x682e6ff3,
    0x748f82ee, 0x78a5636f, 0x84c87814, 0x8cc70208, 0x90befffa, 0xa4506ceb, 0xbef9a3f7, 0xc67178f2 ]

/-- The eight words of the state, which are the working variables of the rounds as well. -/
structure State where
  a : UInt32
  b : UInt32
  c : UInt32
  d : UInt32
  e : UInt32
  f : UInt32
  g : UInt32
  h : UInt32
  deriving Repr, DecidableEq

def State.initial : State :=
  ⟨0x6a09e667, 0xbb67ae85, 0x3c6ef372, 0xa54ff53a, 0x510e527f, 0x9b05688c, 0x1f83d9ab, 0x5be0cd19⟩

def rotateRight (x count : UInt32) : UInt32 := x >>> count ||| x <<< (32 - count)

def smallSigma0 (x : UInt32) : UInt32 := rotateRight x 7 ^^^ rotateRight x 18 ^^^ x >>> 3

def smallSigma1 (x : UInt32) : UInt32 := rotateRight x 17 ^^^ rotateRight x 19 ^^^ x >>> 10

def bigSigma0 (x : UInt32) : UInt32 := rotateRight x 2 ^^^ rotateRight x 13 ^^^ rotateRight x 22

def bigSigma1 (x : UInt32) : UInt32 := rotateRight x 6 ^^^ rotateRight x 11 ^^^ rotateRight x 25

def choice (x y z : UInt32) : UInt32 := (x &&& y) ^^^ (~~~x &&& z)

def majority (x y z : UInt32) : UInt32 := (x &&& y) ^^^ (x &&& z) ^^^ (y &&& z)

/-- The next words of the schedule, from a window of the last sixteen. -/
def schedule : (count : Nat) → (window : List UInt32) → List UInt32
  | 0, _ => []
  | count + 1, window =>
    let next := smallSigma1 (window.getD 14 0) + window.getD 9 0 + smallSigma0 (window.getD 1 0) + window.getD 0 0
    window.getD 0 0 :: schedule count (window.drop 1 ++ [next])

def round (s : State) (constant word : UInt32) : State :=
  let t1 := s.h + bigSigma1 s.e + choice s.e s.f s.g + constant + word
  let t2 := bigSigma0 s.a + majority s.a s.b s.c
  ⟨t1 + t2, s.a, s.b, s.c, s.d + t1, s.e, s.f, s.g⟩

/-- Big-endian words of four bytes. -/
def words : List UInt8 → List UInt32
  | a :: b :: c :: d :: rest =>
    (a.toUInt32 <<< 24 ||| b.toUInt32 <<< 16 ||| c.toUInt32 <<< 8 ||| d.toUInt32) :: words rest
  | _ => []

def compress (s : State) (block : List UInt8) : State :=
  let t := (constants.zip (schedule 64 (words block))).foldl (fun t step => round t step.1 step.2) s
  ⟨s.a + t.a, s.b + t.b, s.c + t.c, s.d + t.d, s.e + t.e, s.f + t.f, s.g + t.g, s.h + t.h⟩

/-- One bit, zeros, and the length in bits, up to a whole block. -/
def pad (message : List UInt8) : List UInt8 :=
  message ++ [0x80] ++ List.replicate ((119 - message.length % 64) % 64) 0 ++ toBytes 8 (8 * message.length)

def blocks : (count : Nat) → List UInt8 → State → State
  | 0, _, s => s
  | count + 1, bytes, s => blocks count (bytes.drop 64) (compress s (bytes.take 64))

def digest (message : List UInt8) : List UInt8 :=
  let padded := pad message
  let s := blocks (padded.length / 64) padded .initial
  [s.a, s.b, s.c, s.d, s.e, s.f, s.g, s.h].flatMap fun word => toBytes 4 word.toNat

/-- `createHash('sha256').update(message).digest('hex')`. -/
def hexDigest (message : List UInt8) : String := String.ofList (toHex (digest message))

-- the first test vector of the standard
example : ofBytes (digest [0x61, 0x62, 0x63]) = 0xba7816bf8f01cfea414140de5dae2223b00361a396177a9cb410ff61f20015ad := by
  decide +kernel

end AfroPay.Sha256

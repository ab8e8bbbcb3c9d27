/-!
The MD5 digest of a byte string (RFC 1321): the message is padded to whole
64-byte blocks with a one bit, zeros and its bit length, and each block is mixed
into four 32-bit words by 64 rounds. The digest is those words, low byte first.
-/
namespace FrontCache.Md5

/-- Round constants: the integer part of 2^32 · |sin (i + 1)|. -/
def roundConstants : Array UInt32 := #[
  0xd76aa478, 0xe8c7b756, 0x242070db, 0xc1bdceee, 0xf57c0faf, 0x4787c62a, 0xa8304613, 0xfd469501,
  0x698098d8, 0x8b44f7af, 0xffff5bb1, 0x895cd7be, 0x6b901122, 0xfd987193, 0xa679438e, 0x49b40821,
  0xf61e2562, 0xc040b340, 0x265e5a51, 0xe9b6c7aa, 0xd62f105d, 0x02441453, 0xd8a1e681, 0xe7d3fbc8,
  0x21e1cde6, 0xc33707d6, 0xf4d50d87, 0x455a14ed, 0xa9e3e905, 0xfcefa3f8, 0x676f02d9, 0x8d2a4c8a,
  0xfffa3942, 0x8771f681, 0x6d9d6122, 0xfde5380c, 0xa4beea44, 0x4bdecfa9, 0xf6bb4b60, 0xbebfbc70,
  0x289b7ec6, 0xeaa127fa, 0xd4ef3085, 0x04881d05, 0xd9d4d039, 0xe6db99e5, 0x1fa27cf8, 0xc4ac5665,
  0xf4292244, 0x432aff97, 0xab9423a7, 0xfc93a039, 0x655b59c3, 0x8f0ccc92, 0xffeff47d, 0x85845dd1,
  0x6fa87e4f, 0xfe2ce6e0, 0xa3014314, 0x4e0811a1, 0xf7537e82, 0xbd3af235, 0x2ad7d2bb, 0xeb86d391]

/-- Left rotation amounts, four per quarter of the rounds. -/
def shifts : Array UInt32 := #[
  7, 12, 17, 22, 7, 12, 17, 22, 7, 12, 17, 22, 7, 12, 17, 22,
  5, 9, 14, 20, 5, 9, 14, 20, 5, 9, 14, 20, 5, 9, 14, 20,
  4, 11, 16, 23, 4, 11, 16, 23, 4, 11, 16, 23, 4, 11, 16, 23,
  6, 10, 15, 21, 6, 10, 15, 21, 6, 10, 15, 21, 6, 10, 15, 21]

/-- The four chaining words. -/
structure Words where
  a : UInt32
  b : UInt32
  c : UInt32
  d : UInt32

def initial : Words := ⟨0x67452301, 0xefcdab89, 0x98badcfe, 0x10325476⟩

def rotl (x s : UInt32) : UInt32 := (x <<< s) ||| (x >>> (32 - s))

/-- The little-endian word at word index `j` of a block. -/
def wordAt (block : Array UInt8) (j : Nat) : UInt32 :=
  let byte (k : Nat) : UInt32 := (block.getD (4 * j + k) 0).toUInt32
  byte 0 ||| (byte 1 <<< 8) ||| (byte 2 <<< 16) ||| (byte 3 <<< 24)

/-- Round `i` of one block. -/
def round (block : Array UInt8) (w : Words) (i : Nat) : Words :=
  let (f, g) :=
    if i < 16 then ((w.b &&& w.c) ||| (~~~w.b &&& w.d), i)
    else if i < 32 then ((w.d &&& w.b) ||| (~~~w.d &&& w.c), (5 * i + 1) % 16)
    else if i < 48 then (w.b ^^^ w.c ^^^ w.d, (3 * i + 5) % 16)
    else (w.c ^^^ (w.b ||| ~~~w.d), (7 * i) % 16)
  let f := f + w.a + roundConstants.getD i 0 + wordAt block g
  ⟨w.d, w.b + rotl f (shifts.getD i 0), w.b, w.c⟩

/-- One 64-byte block mixed into the chaining words. -/
def mixBlock (w : Words) (block : Array UInt8) : Words :=
  let r := (List.range 64).foldl (round block) w
  ⟨w.a + r.a, w.b + r.b, w.c + r.c, w.d + r.d⟩

/-- The bytes of a 64-bit number, low first. -/
def lengthBytes (n : Nat) : List UInt8 :=
  (List.range 8).map fun k => UInt8.ofNat (n / Nat.pow 2 (8 * k))

/-- The message followed by the one bit, zeros up to 56 mod 64, and its bit length. -/
def padded (msg : List UInt8) : List UInt8 :=
  let zeros := (119 - msg.length % 64) % 64
  msg ++ [0x80] ++ List.replicate zeros 0 ++ lengthBytes (8 * msg.length)

/-- The blocks of a padded message, 64 bytes each. -/
def blocks (bytes : List UInt8) : List (Array UInt8) :=
  if bytes.length ≤ 64 then [bytes.toArray]
  else (bytes.take 64).toArray :: blocks (bytes.drop 64)
termination_by bytes.length
decreasing_by simp only [List.length_drop]; omega

def wordBytes (x : UInt32) : List UInt8 :=
  [x.toUInt8, (x >>> 8).toUInt8, (x >>> 16).toUInt8, (x >>> 24).toUInt8]

/-- The sixteen digest bytes of a message. -/
def digest (msg : List UInt8) : List UInt8 :=
  let w := (blocks (padded msg)).foldl mixBlock initial
  wordBytes w.a ++ wordBytes w.b ++ wordBytes w.c ++ wordBytes w.d

end FrontCache.Md5

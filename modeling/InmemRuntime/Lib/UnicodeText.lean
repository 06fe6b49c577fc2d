import Mathlib.Data.String.Basic

namespace UnicodeText

def isSpace (c : Char) : Bool :=
  let n := c.toNat
  (9 ≤ n && n ≤ 13) || (28 ≤ n && n ≤ 32) || n = 0x85 || n = 0xa0 || n = 0x1680 || (0x2000 ≤ n && n ≤ 0x200a) ||
    n = 0x2028 || n = 0x2029 || n = 0x202f || n = 0x205f || n = 0x3000

/-- The zeros of the scripts with decimal digits: the other nine follow each. -/
def decimalZeros : List Nat :=
  [0x30, 0x660, 0x6f0, 0x7c0, 0x966, 0x9e6, 0xa66, 0xae6, 0xb66, 0xbe6, 0xc66, 0xce6, 0xd66, 0xde6, 0xe50,
   0xed0, 0xf20, 0x1040, 0x1090, 0x17e0, 0x1810, 0x1946, 0x19d0, 0x1a80, 0x1a90, 0x1b50, 0x1bb0, 0x1c40,
   0x1c50, 0xa620, 0xa8d0, 0xa900, 0xa9d0, 0xa9f0, 0xaa50, 0xabf0, 0xff10, 0x104a0, 0x10d30, 0x11066, 0x110f0,
   0x11136, 0x111d0, 0x112f0, 0x11450, 0x114d0, 0x11650, 0x116c0, 0x11730, 0x118e0, 0x11950, 0x11c50, 0x11d50,
   0x11da0, 0x16a60, 0x16ac0, 0x16b50, 0x1d7ce, 0x1d7d8, 0x1d7e2, 0x1d7ec, 0x1d7f6, 0x1e140, 0x1e2f0, 0x1e950,
   0x1fbf0]

/-- The value of a decimal digit. -/
def decimal? (c : Char) : Option Nat :=
  (decimalZeros.find? (fun first => first ≤ c.toNat && c.toNat ≤ first + 9)).map (fun first => c.toNat - first)

/-- A run of characters with one lower case letter each: the first, how many,
the step from one to the next, and how far the lower case is. -/
abbrev LowerRun := Nat × Nat × Nat × Int

def LowerRun.holds (n : Nat) : LowerRun → Bool
  | (first, count, step, _) => first ≤ n && n < first + count * step && (n - first) % step = 0

/-- The runs beyond ASCII. -/
def lowerRuns : List LowerRun :=
  [(0xc0, 23, 1, 32), (0xd8, 7, 1, 32), (0x100, 24, 2, 1), (0x132, 3, 2, 1), (0x139, 8, 2, 1),
   (0x14a, 23, 2, 1), (0x178, 1, 1, -121), (0x179, 3, 2, 1), (0x181, 1, 1, 210), (0x182, 2, 2, 1),
   (0x186, 1, 1, 206), (0x187, 1, 1, 1), (0x189, 2, 1, 205), (0x18b, 1, 1, 1), (0x18e, 1, 1, 79),
   (0x18f, 1, 1, 202), (0x190, 1, 1, 203), (0x191, 1, 1, 1), (0x193, 1, 1, 205), (0x194, 1, 1, 207),
   (0x196, 1, 1, 211), (0x197, 1, 1, 209), (0x198, 1, 1, 1), (0x19c, 1, 1, 211), (0x19d, 1, 1, 213),
   (0x19f, 1, 1, 214), (0x1a0, 3, 2, 1), (0x1a6, 1, 1, 218), (0x1a7, 1, 1, 1), (0x1a9, 1, 1, 218),
   (0x1ac, 1, 1, 1), (0x1ae, 1, 1, 218), (0x1af, 1, 1, 1), (0x1b1, 2, 1, 217), (0x1b3, 2, 2, 1),
   (0x1b7, 1, 1, 219), (0x1b8, 1, 1, 1), (0x1bc, 1, 1, 1), (0x1c4, 1, 1, 2), (0x1c5, 1, 1, 1),
   (0x1c7, 1, 1, 2), (0x1c8, 1, 1, 1), (0x1ca, 1, 1, 2), (0x1cb, 9, 2, 1), (0x1de, 9, 2, 1), (0x1f1, 1, 1, 2),
   (0x1f2, 2, 2, 1), (0x1f6, 1, 1, -97), (0x1f7, 1, 1, -56), (0x1f8, 20, 2, 1), (0x220, 1, 1, -130),
   (0x222, 9, 2, 1), (0x23a, 1, 1, 10795), (0x23b, 1, 1, 1), (0x23d, 1, 1, -163), (0x23e, 1, 1, 10792),
   (0x241, 1, 1, 1), (0x243, 1, 1, -195), (0x244, 1, 1, 69), (0x245, 1, 1, 71), (0x246, 5, 2, 1),
   (0x370, 2, 2, 1), (0x376, 1, 1, 1), (0x37f, 1, 1, 116), (0x386, 1, 1, 38), (0x388, 3, 1, 37),
   (0x38c, 1, 1, 64), (0x38e, 2, 1, 63), (0x391, 17, 1, 32), (0x3a3, 9, 1, 32), (0x3cf, 1, 1, 8),
   (0x3d8, 12, 2, 1), (0x3f4, 1, 1, -60), (0x3f7, 1, 1, 1), (0x3f9, 1, 1, -7), (0x3fa, 1, 1, 1),
   (0x3fd, 3, 1, -130), (0x400, 16, 1, 80), (0x410, 32, 1, 32), (0x460, 17, 2, 1), (0x48a, 27, 2, 1),
   (0x4c0, 1, 1, 15), (0x4c1, 7, 2, 1), (0x4d0, 48, 2, 1), (0x531, 38, 1, 48), (0x10a0, 38, 1, 7264),
   (0x10c7, 1, 1, 7264), (0x10cd, 1, 1, 7264), (0x13a0, 80, 1, 38864), (0x13f0, 6, 1, 8),
   (0x1c90, 43, 1, -3008), (0x1cbd, 3, 1, -3008), (0x1e00, 75, 2, 1), (0x1e9e, 1, 1, -7615),
   (0x1ea0, 48, 2, 1), (0x1f08, 8, 1, -8), (0x1f18, 6, 1, -8), (0x1f28, 8, 1, -8), (0x1f38, 8, 1, -8),
   (0x1f48, 6, 1, -8), (0x1f59, 4, 2, -8), (0x1f68, 8, 1, -8), (0x1f88, 8, 1, -8), (0x1f98, 8, 1, -8),
   (0x1fa8, 8, 1, -8), (0x1fb8, 2, 1, -8), (0x1fba, 2, 1, -74), (0x1fbc, 1, 1, -9), (0x1fc8, 4, 1, -86),
   (0x1fcc, 1, 1, -9), (0x1fd8, 2, 1, -8), (0x1fda, 2, 1, -100), (0x1fe8, 2, 1, -8), (0x1fea, 2, 1, -112),
   (0x1fec, 1, 1, -7), (0x1ff8, 2, 1, -128), (0x1ffa, 2, 1, -126), (0x1ffc, 1, 1, -9), (0x2126, 1, 1, -7517),
   (0x212a, 1, 1, -8383), (0x212b, 1, 1, -8262), (0x2132, 1, 1, 28), (0x2160, 16, 1, 16), (0x2183, 1, 1, 1),
   (0x24b6, 26, 1, 26), (0x2c00, 48, 1, 48), (0x2c60, 1, 1, 1), (0x2c62, 1, 1, -10743), (0x2c63, 1, 1, -3814),
   (0x2c64, 1, 1, -10727), (0x2c67, 3, 2, 1), (0x2c6d, 1, 1, -10780), (0x2c6e, 1, 1, -10749),
   (0x2c6f, 1, 1, -10783), (0x2c70, 1, 1, -10782), (0x2c72, 1, 1, 1), (0x2c75, 1, 1, 1),
   (0x2c7e, 2, 1, -10815), (0x2c80, 50, 2, 1), (0x2ceb, 2, 2, 1), (0x2cf2, 1, 1, 1), (0xa640, 23, 2, 1),
   (0xa680, 14, 2, 1), (0xa722, 7, 2, 1), (0xa732, 31, 2, 1), (0xa779, 2, 2, 1), (0xa77d, 1, 1, -35332),
   (0xa77e, 5, 2, 1), (0xa78b, 1, 1, 1), (0xa78d, 1, 1, -42280), (0xa790, 2, 2, 1), (0xa796, 10, 2, 1),
   (0xa7aa, 1, 1, -42308), (0xa7ab, 1, 1, -42319), (0xa7ac, 1, 1, -42315), (0xa7ad, 1, 1, -42305),
   (0xa7ae, 1, 1, -42308), (0xa7b0, 1, 1, -42258), (0xa7b1, 1, 1, -42282), (0xa7b2, 1, 1, -42261),
   (0xa7b3, 1, 1, 928), (0xa7b4, 8, 2, 1), (0xa7c4, 1, 1, -48), (0xa7c5, 1, 1, -42307), (0xa7c6, 1, 1, -35384),
   (0xa7c7, 2, 2, 1), (0xa7d0, 1, 1, 1), (0xa7d6, 2, 2, 1), (0xa7f5, 1, 1, 1), (0xff21, 26, 1, 32),
   (0x10400, 40, 1, 40), (0x104b0, 36, 1, 40), (0x10570, 19, 2, 39), (0x10571, 5, 2, 39), (0x1057d, 7, 2, 39),
   (0x1058d, 3, 2, 39), (0x10595, 1, 1, 39), (0x10c80, 51, 1, 64), (0x118a0, 32, 1, 32), (0x16e40, 32, 1, 32),
   (0x1e900, 34, 1, 34)]

def lowerChar (c : Char) : List Char :=
  if c.toNat < 128 then [c.toLower]
  else if c.toNat = 0x130 then ['i', Char.ofNat 0x307]
  else
    match lowerRuns.find? (LowerRun.holds c.toNat) with
    | some (_, _, _, offset) => [Char.ofNat (c.toNat + offset).toNat]
    | none => [c]

def lower (s : String) : String := String.ofList (s.toList.flatMap lowerChar)

end UnicodeText

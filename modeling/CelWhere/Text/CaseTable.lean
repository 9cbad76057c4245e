/-! # Tables of letter case

The letters of all scripts that have an upper or a lower case, as ranges of code points that are
moved by the same distance, and the letters whose other case is more than one character. -/

namespace CelWhere.Text

/-- Code points from `first` to `last`, each `stride` behind the one before, that are moved by
`shift`. -/
structure CaseRange where
  /-- The first code point. -/
  first : Nat
  /-- The last code point. -/
  last : Nat
  /-- The distance between two code points of the range. -/
  stride : Nat
  /-- The distance to the other case. -/
  shift : Int

namespace CaseRange

/-- A single code point. -/
def one (code : Nat) (shift : Int) : CaseRange := ⟨code, code, 1, shift⟩

/-- Code points next to each other. -/
def run (first last : Nat) (shift : Int) : CaseRange := ⟨first, last, 1, shift⟩

/-- The code points that a range is moved to, and the way back. -/
def reversed (range : CaseRange) : CaseRange :=
  ⟨(range.first + range.shift).toNat, (range.last + range.shift).toNat, range.stride, -range.shift⟩

end CaseRange

/-- The capital letters that are the upper case of their lower case. -/
def capitalRanges : List CaseRange :=
  [.run 0x41 0x5a 32, .run 0xc0 0xd6 32, .run 0xd8 0xde 32, ⟨0x100, 0x12e, 2, 1⟩,
    ⟨0x132, 0x136, 2, 1⟩, ⟨0x139, 0x147, 2, 1⟩, ⟨0x14a, 0x176, 2, 1⟩, .one 0x178 (-121),
    ⟨0x179, 0x17d, 2, 1⟩, .one 0x181 210, ⟨0x182, 0x184, 2, 1⟩, .one 0x186 206, .one 0x187 1,
    .run 0x189 0x18a 205, .one 0x18b 1, .one 0x18e 79, .one 0x18f 202, .one 0x190 203, .one 0x191 1,
    .one 0x193 205, .one 0x194 207, .one 0x196 211, .one 0x197 209, .one 0x198 1, .one 0x19c 211,
    .one 0x19d 213, .one 0x19f 214, ⟨0x1a0, 0x1a4, 2, 1⟩, .one 0x1a6 218, .one 0x1a7 1,
    .one 0x1a9 218, .one 0x1ac 1, .one 0x1ae 218, .one 0x1af 1, .run 0x1b1 0x1b2 217,
    ⟨0x1b3, 0x1b5, 2, 1⟩, .one 0x1b7 219, .one 0x1b8 1, .one 0x1bc 1, .one 0x1c4 2, .one 0x1c7 2,
    .one 0x1ca 2, ⟨0x1cd, 0x1db, 2, 1⟩, ⟨0x1de, 0x1ee, 2, 1⟩, .one 0x1f1 2, .one 0x1f4 1,
    .one 0x1f6 (-97), .one 0x1f7 (-56), ⟨0x1f8, 0x21e, 2, 1⟩, .one 0x220 (-130),
    ⟨0x222, 0x232, 2, 1⟩, .one 0x23a 10795, .one 0x23b 1, .one 0x23d (-163), .one 0x23e 10792,
    .one 0x241 1, .one 0x243 (-195), .one 0x244 69, .one 0x245 71, ⟨0x246, 0x24e, 2, 1⟩,
    ⟨0x370, 0x372, 2, 1⟩, .one 0x376 1, .one 0x37f 116, .one 0x386 38, .run 0x388 0x38a 37,
    .one 0x38c 64, .run 0x38e 0x38f 63, .run 0x391 0x3a1 32, .run 0x3a3 0x3ab 32, .one 0x3cf 8,
    ⟨0x3d8, 0x3ee, 2, 1⟩, .one 0x3f7 1, .one 0x3f9 (-7), .one 0x3fa 1, .run 0x3fd 0x3ff (-130),
    .run 0x400 0x40f 80, .run 0x410 0x42f 32, ⟨0x460, 0x480, 2, 1⟩, ⟨0x48a, 0x4be, 2, 1⟩,
    .one 0x4c0 15, ⟨0x4c1, 0x4cd, 2, 1⟩, ⟨0x4d0, 0x52e, 2, 1⟩, .run 0x531 0x556 48,
    .run 0x10a0 0x10c5 7264, .one 0x10c7 7264, .one 0x10cd 7264, .run 0x13a0 0x13ef 38864,
    .run 0x13f0 0x13f5 8, .run 0x1c90 0x1cba (-3008), .run 0x1cbd 0x1cbf (-3008),
    ⟨0x1e00, 0x1e94, 2, 1⟩, ⟨0x1ea0, 0x1efe, 2, 1⟩, .run 0x1f08 0x1f0f (-8),
    .run 0x1f18 0x1f1d (-8), .run 0x1f28 0x1f2f (-8), .run 0x1f38 0x1f3f (-8),
    .run 0x1f48 0x1f4d (-8), ⟨0x1f59, 0x1f5f, 2, -8⟩, .run 0x1f68 0x1f6f (-8),
    .run 0x1fb8 0x1fb9 (-8), .run 0x1fba 0x1fbb (-74), .run 0x1fc8 0x1fcb (-86),
    .run 0x1fd8 0x1fd9 (-8), .run 0x1fda 0x1fdb (-100), .run 0x1fe8 0x1fe9 (-8),
    .run 0x1fea 0x1feb (-112), .one 0x1fec (-7), .run 0x1ff8 0x1ff9 (-128),
    .run 0x1ffa 0x1ffb (-126), .one 0x2132 28, .run 0x2160 0x216f 16, .one 0x2183 1,
    .run 0x24b6 0x24cf 26, .run 0x2c00 0x2c2f 48, .one 0x2c60 1, .one 0x2c62 (-10743),
    .one 0x2c63 (-3814), .one 0x2c64 (-10727), ⟨0x2c67, 0x2c6b, 2, 1⟩, .one 0x2c6d (-10780),
    .one 0x2c6e (-10749), .one 0x2c6f (-10783), .one 0x2c70 (-10782), .one 0x2c72 1, .one 0x2c75 1,
    .run 0x2c7e 0x2c7f (-10815), ⟨0x2c80, 0x2ce2, 2, 1⟩, ⟨0x2ceb, 0x2ced, 2, 1⟩, .one 0x2cf2 1,
    ⟨0xa640, 0xa66c, 2, 1⟩, ⟨0xa680, 0xa69a, 2, 1⟩, ⟨0xa722, 0xa72e, 2, 1⟩, ⟨0xa732, 0xa76e, 2, 1⟩,
    ⟨0xa779, 0xa77b, 2, 1⟩, .one 0xa77d (-35332), ⟨0xa77e, 0xa786, 2, 1⟩, .one 0xa78b 1,
    .one 0xa78d (-42280), ⟨0xa790, 0xa792, 2, 1⟩, ⟨0xa796, 0xa7a8, 2, 1⟩, .one 0xa7aa (-42308),
    .one 0xa7ab (-42319), .one 0xa7ac (-42315), .one 0xa7ad (-42305), .one 0xa7ae (-42308),
    .one 0xa7b0 (-42258), .one 0xa7b1 (-42282), .one 0xa7b2 (-42261), .one 0xa7b3 928,
    ⟨0xa7b4, 0xa7c2, 2, 1⟩, .one 0xa7c4 (-48), .one 0xa7c5 (-42307), .one 0xa7c6 (-35384),
    ⟨0xa7c7, 0xa7c9, 2, 1⟩, .one 0xa7d0 1, ⟨0xa7d6, 0xa7d8, 2, 1⟩, .one 0xa7f5 1,
    .run 0xff21 0xff3a 32, .run 0x10400 0x10427 40, .run 0x104b0 0x104d3 40,
    ⟨0x10570, 0x10594, 2, 39⟩, ⟨0x10571, 0x10579, 2, 39⟩, ⟨0x1057d, 0x10589, 2, 39⟩,
    ⟨0x1058d, 0x10591, 2, 39⟩, .one 0x10595 39, .run 0x10c80 0x10cb2 64, .run 0x118a0 0x118bf 32,
    .run 0x16e40 0x16e5f 32, .run 0x1e900 0x1e921 34]

/-- The letters with an upper case of one character. -/
def upperRanges : List CaseRange :=
  capitalRanges.map .reversed ++
    [.one 0xb5 743, .one 0x131 (-232), .one 0x17f (-300), .one 0x1c5 (-1), .one 0x1c8 (-1),
      .one 0x1cb (-1), .one 0x1f2 (-1), .one 0x345 84, .one 0x3c2 (-31), .one 0x3d0 (-62),
      .one 0x3d1 (-57), .one 0x3d5 (-47), .one 0x3d6 (-54), .one 0x3f0 (-86), .one 0x3f1 (-80),
      .one 0x3f5 (-96), .one 0x1c80 (-6254), .one 0x1c81 (-6253), .one 0x1c82 (-6244),
      .run 0x1c83 0x1c84 (-6242), .one 0x1c85 (-6243), .one 0x1c86 (-6236), .one 0x1c87 (-6181),
      .one 0x1c88 35266, .one 0x1e9b (-59), .one 0x1fbe (-7205)]

/-- The letters with a lower case of one character. -/
def lowerRanges : List CaseRange :=
  capitalRanges ++
    [.one 0x1c5 1, .one 0x1c8 1, .one 0x1cb 1, .one 0x1f2 1, .one 0x3f4 (-60), .one 0x1e9e (-7615),
      .run 0x1f88 0x1f8f (-8), .run 0x1f98 0x1f9f (-8), .run 0x1fa8 0x1faf (-8), .one 0x1fbc (-9),
      .one 0x1fcc (-9), .one 0x1ffc (-9), .one 0x2126 (-7517), .one 0x212a (-8383),
      .one 0x212b (-8262)]

/-- Eight letters with a iota below them, whose upper case has the iota behind it. -/
def iotaExpansions (first upper : Nat) : List (Nat × List Nat) :=
  (List.range 8).map fun place => (first + place, [upper + place, 0x399])

/-- The letters with an upper case of several characters. -/
def upperExpansions : List (Nat × List Nat) :=
  iotaExpansions 0x1f80 0x1f08 ++ iotaExpansions 0x1f88 0x1f08 ++ iotaExpansions 0x1f90 0x1f28 ++
    iotaExpansions 0x1f98 0x1f28 ++ iotaExpansions 0x1fa0 0x1f68 ++ iotaExpansions 0x1fa8 0x1f68 ++
    [(0xdf, [0x53, 0x53]), (0x149, [0x2bc, 0x4e]), (0x1f0, [0x4a, 0x30c]),
      (0x390, [0x399, 0x308, 0x301]), (0x3b0, [0x3a5, 0x308, 0x301]), (0x587, [0x535, 0x552]),
      (0x1e96, [0x48, 0x331]), (0x1e97, [0x54, 0x308]), (0x1e98, [0x57, 0x30a]),
      (0x1e99, [0x59, 0x30a]), (0x1e9a, [0x41, 0x2be]), (0x1f50, [0x3a5, 0x313]),
      (0x1f52, [0x3a5, 0x313, 0x300]), (0x1f54, [0x3a5, 0x313, 0x301]),
      (0x1f56, [0x3a5, 0x313, 0x342]), (0x1fb2, [0x1fba, 0x399]), (0x1fb3, [0x391, 0x399]),
      (0x1fb4, [0x386, 0x399]), (0x1fb6, [0x391, 0x342]), (0x1fb7, [0x391, 0x342, 0x399]),
      (0x1fbc, [0x391, 0x399]), (0x1fc2, [0x1fca, 0x399]), (0x1fc3, [0x397, 0x399]),
      (0x1fc4, [0x389, 0x399]), (0x1fc6, [0x397, 0x342]), (0x1fc7, [0x397, 0x342, 0x399]),
      (0x1fcc, [0x397, 0x399]), (0x1fd2, [0x399, 0x308, 0x300]), (0x1fd3, [0x399, 0x308, 0x301]),
      (0x1fd6, [0x399, 0x342]), (0x1fd7, [0x399, 0x308, 0x342]), (0x1fe2, [0x3a5, 0x308, 0x300]),
      (0x1fe3, [0x3a5, 0x308, 0x301]), (0x1fe4, [0x3a1, 0x313]), (0x1fe6, [0x3a5, 0x342]),
      (0x1fe7, [0x3a5, 0x308, 0x342]), (0x1ff2, [0x1ffa, 0x399]), (0x1ff3, [0x3a9, 0x399]),
      (0x1ff4, [0x38f, 0x399]), (0x1ff6, [0x3a9, 0x342]), (0x1ff7, [0x3a9, 0x342, 0x399]),
      (0x1ffc, [0x3a9, 0x399]), (0xfb00, [0x46, 0x46]), (0xfb01, [0x46, 0x49]),
      (0xfb02, [0x46, 0x4c]), (0xfb03, [0x46, 0x46, 0x49]), (0xfb04, [0x46, 0x46, 0x4c]),
      (0xfb05, [0x53, 0x54]), (0xfb06, [0x53, 0x54]), (0xfb13, [0x544, 0x546]),
      (0xfb14, [0x544, 0x535]), (0xfb15, [0x544, 0x53b]), (0xfb16, [0x54e, 0x546]),
      (0xfb17, [0x544, 0x53d])]

/-- The letters with a lower case of several characters. -/
def lowerExpansions : List (Nat × List Nat) :=
  [(0x130, [0x69, 0x307])]

end CelWhere.Text

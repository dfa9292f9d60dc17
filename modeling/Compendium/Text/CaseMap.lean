/-!
# Case mappings above ASCII

The Unicode case mappings as data: runs of code points that move by a constant distance, and the
characters whose image is longer than one character. Uppercase forms are those of the lowercase
mappings read backwards, with some of their own before them.
-/

namespace Compendium.Text

/-- Code points from `first` to `last`, every `step`-th of which moves by `shift`. -/
structure CaseRun where
  first : Nat
  last : Nat
  step : Nat
  shift : Int

namespace CaseRun

/-- Whether the run moves the code point. -/
def moves (run : CaseRun) (n : Nat) : Bool :=
  run.first ≤ n && n ≤ run.last && (n - run.first) % run.step == 0

/-- The run of the images, which moves back. -/
def reversed (run : CaseRun) : CaseRun :=
  ⟨(run.first + run.shift).toNat, (run.last + run.shift).toNat, run.step, -run.shift⟩

/-- A code point that moves on its own. -/
def single (n : Nat) (shift : Int) : CaseRun :=
  ⟨n, n, 1, shift⟩

end CaseRun

/-- The bounds of runs in which every other code point has the next one as its lowercase form. -/
def alternatingRuns : List (Nat × Nat) :=
  [(0x100, 0x12E), (0x132, 0x136), (0x139, 0x147), (0x14A, 0x176), (0x179, 0x17D), (0x182, 0x184),
   (0x187, 0x187), (0x18B, 0x18B), (0x191, 0x191), (0x198, 0x198), (0x1A0, 0x1A4), (0x1A7, 0x1A7),
   (0x1AC, 0x1AC), (0x1AF, 0x1AF), (0x1B3, 0x1B5), (0x1B8, 0x1B8), (0x1BC, 0x1BC), (0x1C5, 0x1C5),
   (0x1C8, 0x1C8), (0x1CB, 0x1DB), (0x1DE, 0x1EE), (0x1F2, 0x1F4), (0x1F8, 0x21E), (0x222, 0x232),
   (0x23B, 0x23B), (0x241, 0x241), (0x246, 0x24E), (0x370, 0x372), (0x376, 0x376), (0x3D8, 0x3EE),
   (0x3F7, 0x3F7), (0x3FA, 0x3FA), (0x460, 0x480), (0x48A, 0x4BE), (0x4C1, 0x4CD), (0x4D0, 0x52E),
   (0x1C89, 0x1C89), (0x1E00, 0x1E94), (0x1EA0, 0x1EFE), (0x2183, 0x2183), (0x2C60, 0x2C60),
   (0x2C67, 0x2C6B), (0x2C72, 0x2C72), (0x2C75, 0x2C75), (0x2C80, 0x2CE2), (0x2CEB, 0x2CED),
   (0x2CF2, 0x2CF2), (0xA640, 0xA66C), (0xA680, 0xA69A), (0xA722, 0xA72E), (0xA732, 0xA76E),
   (0xA779, 0xA77B), (0xA77E, 0xA786), (0xA78B, 0xA78B), (0xA790, 0xA792), (0xA796, 0xA7A8),
   (0xA7B4, 0xA7C2), (0xA7C7, 0xA7C9), (0xA7CC, 0xA7DA), (0xA7F5, 0xA7F5)]

/-- The bounds of longer runs of neighbours, and how far their lowercase forms are. -/
def neighbourRuns : List (Nat × Nat × Int) :=
  [(0xC0, 0xD6, 32), (0xD8, 0xDE, 32), (0x189, 0x18A, 205), (0x1B1, 0x1B2, 217), (0x388, 0x38A, 37),
   (0x38E, 0x38F, 63), (0x391, 0x3A1, 32), (0x3A3, 0x3AB, 32), (0x3FD, 0x3FF, -130),
   (0x400, 0x40F, 80), (0x410, 0x42F, 32), (0x531, 0x556, 48), (0x10A0, 0x10C5, 7264),
   (0x13A0, 0x13EF, 38864), (0x13F0, 0x13F5, 8), (0x1C90, 0x1CBA, -3008), (0x1CBD, 0x1CBF, -3008),
   (0x1F08, 0x1F0F, -8), (0x1F18, 0x1F1D, -8), (0x1F28, 0x1F2F, -8), (0x1F38, 0x1F3F, -8),
   (0x1F48, 0x1F4D, -8), (0x1F68, 0x1F6F, -8), (0x1F88, 0x1F8F, -8), (0x1F98, 0x1F9F, -8),
   (0x1FA8, 0x1FAF, -8), (0x1FB8, 0x1FB9, -8), (0x1FBA, 0x1FBB, -74), (0x1FC8, 0x1FCB, -86),
   (0x1FD8, 0x1FD9, -8), (0x1FDA, 0x1FDB, -100), (0x1FE8, 0x1FE9, -8), (0x1FEA, 0x1FEB, -112),
   (0x1FF8, 0x1FF9, -128), (0x1FFA, 0x1FFB, -126), (0x2160, 0x216F, 16), (0x24B6, 0x24CF, 26),
   (0x2C00, 0x2C2F, 48), (0x2C7E, 0x2C7F, -10815), (0xFF21, 0xFF3A, 32), (0x10400, 0x10427, 40),
   (0x104B0, 0x104D3, 40), (0x10570, 0x1057A, 39), (0x1057C, 0x1058A, 39), (0x1058C, 0x10592, 39),
   (0x10594, 0x10595, 39), (0x10C80, 0x10CB2, 64), (0x10D50, 0x10D65, 32), (0x118A0, 0x118BF, 32),
   (0x16E40, 0x16E5F, 32), (0x16EA0, 0x16EB8, 27), (0x1E900, 0x1E921, 34)]

/-- Code points on their own, and how far their lowercase forms are. -/
def lowercaseSingles : List (Nat × Int) :=
  [(0x178, -121), (0x181, 210), (0x186, 206), (0x18E, 79), (0x18F, 202), (0x190, 203), (0x193, 205),
   (0x194, 207), (0x196, 211), (0x197, 209), (0x19C, 211), (0x19D, 213), (0x19F, 214), (0x1A6, 218),
   (0x1A9, 218), (0x1AE, 218), (0x1B7, 219), (0x1C4, 2), (0x1C7, 2), (0x1CA, 2), (0x1F1, 2),
   (0x1F6, -97), (0x1F7, -56), (0x220, -130), (0x23A, 10795), (0x23D, -163), (0x23E, 10792),
   (0x243, -195), (0x244, 69), (0x245, 71), (0x37F, 116), (0x386, 38), (0x38C, 64), (0x3CF, 8),
   (0x3F4, -60), (0x3F9, -7), (0x4C0, 15), (0x10C7, 7264), (0x10CD, 7264), (0x1E9E, -7615),
   (0x1F59, -8), (0x1F5B, -8), (0x1F5D, -8), (0x1F5F, -8), (0x1FBC, -9), (0x1FCC, -9), (0x1FEC, -7),
   (0x1FFC, -9), (0x2126, -7517), (0x212A, -8383), (0x212B, -8262), (0x2132, 28), (0x2C62, -10743),
   (0x2C63, -3814), (0x2C64, -10727), (0x2C6D, -10780), (0x2C6E, -10749), (0x2C6F, -10783),
   (0x2C70, -10782), (0xA77D, -35332), (0xA78D, -42280), (0xA7AA, -42308), (0xA7AB, -42319),
   (0xA7AC, -42315), (0xA7AD, -42305), (0xA7AE, -42308), (0xA7B0, -42258), (0xA7B1, -42282),
   (0xA7B2, -42261), (0xA7B3, 928), (0xA7C4, -48), (0xA7C5, -42307), (0xA7C6, -35384),
   (0xA7CB, -42343), (0xA7DC, -42561)]

/-- The code points whose lowercase form is one other character. -/
def lowercaseRuns : List CaseRun :=
  (alternatingRuns.map fun (first, last) => ⟨first, last, 2, 1⟩) ++
    ((neighbourRuns.map fun (first, last, shift) => ⟨first, last, 1, shift⟩) ++
      lowercaseSingles.map fun (n, shift) => .single n shift)

/-- The code points whose lowercase form is several characters. -/
def lowercaseExpansions : List (Nat × List Nat) :=
  [(0x130, [0x69, 0x307])]

/-- Code points whose uppercase form has another lowercase form, and how far it is. -/
def uppercaseSingles : List (Nat × Int) :=
  [(0xB5, 743), (0x131, -232), (0x17F, -300), (0x1C5, -1), (0x1C6, -2), (0x1C8, -1), (0x1C9, -2),
   (0x1CB, -1), (0x1CC, -2), (0x1F2, -1), (0x1F3, -2), (0x345, 84), (0x3C2, -31), (0x3D0, -62),
   (0x3D1, -57), (0x3D5, -47), (0x3D6, -54), (0x3F0, -86), (0x3F1, -80), (0x3F5, -96),
   (0x1C80, -6254), (0x1C81, -6253), (0x1C82, -6244), (0x1C83, -6242), (0x1C84, -6242),
   (0x1C85, -6243), (0x1C86, -6236), (0x1C87, -6181), (0x1C88, 35266), (0x1E9B, -59),
   (0x1FBE, -7205)]

/-- The code points whose uppercase form is one other character. -/
def uppercaseRuns : List CaseRun :=
  (uppercaseSingles.map fun (n, shift) => .single n shift) ++ lowercaseRuns.map CaseRun.reversed

/-- Where eight letters with a subscript iota start, and where their capitals without it start. -/
def iotaLetters : List (Nat × Nat) :=
  [(0x1F80, 0x1F08), (0x1F88, 0x1F08), (0x1F90, 0x1F28), (0x1F98, 0x1F28), (0x1FA0, 0x1F68),
   (0x1FA8, 0x1F68)]

/-- The code points whose uppercase form is several characters. -/
def uppercaseExpansions : List (Nat × List Nat) :=
  (iotaLetters.flatMap fun (first, capital) =>
    (List.range 8).map fun i => (first + i, [capital + i, 0x399])) ++
  [(0xDF, [0x53, 0x53]), (0x149, [0x2BC, 0x4E]), (0x1F0, [0x4A, 0x30C]),
   (0x390, [0x399, 0x308, 0x301]), (0x3B0, [0x3A5, 0x308, 0x301]), (0x587, [0x535, 0x552]),
   (0x1E96, [0x48, 0x331]), (0x1E97, [0x54, 0x308]), (0x1E98, [0x57, 0x30A]),
   (0x1E99, [0x59, 0x30A]), (0x1E9A, [0x41, 0x2BE]), (0x1F50, [0x3A5, 0x313]),
   (0x1F52, [0x3A5, 0x313, 0x300]), (0x1F54, [0x3A5, 0x313, 0x301]),
   (0x1F56, [0x3A5, 0x313, 0x342]), (0x1FB2, [0x1FBA, 0x399]), (0x1FB3, [0x391, 0x399]),
   (0x1FB4, [0x386, 0x399]), (0x1FB6, [0x391, 0x342]), (0x1FB7, [0x391, 0x342, 0x399]),
   (0x1FBC, [0x391, 0x399]), (0x1FC2, [0x1FCA, 0x399]), (0x1FC3, [0x397, 0x399]),
   (0x1FC4, [0x389, 0x399]), (0x1FC6, [0x397, 0x342]), (0x1FC7, [0x397, 0x342, 0x399]),
   (0x1FCC, [0x397, 0x399]), (0x1FD2, [0x399, 0x308, 0x300]), (0x1FD3, [0x399, 0x308, 0x301]),
   (0x1FD6, [0x399, 0x342]), (0x1FD7, [0x399, 0x308, 0x342]), (0x1FE2, [0x3A5, 0x308, 0x300]),
   (0x1FE3, [0x3A5, 0x308, 0x301]), (0x1FE4, [0x3A1, 0x313]), (0x1FE6, [0x3A5, 0x342]),
   (0x1FE7, [0x3A5, 0x308, 0x342]), (0x1FF2, [0x1FFA, 0x399]), (0x1FF3, [0x3A9, 0x399]),
   (0x1FF4, [0x38F, 0x399]), (0x1FF6, [0x3A9, 0x342]), (0x1FF7, [0x3A9, 0x342, 0x399]),
   (0x1FFC, [0x3A9, 0x399]), (0xFB00, [0x46, 0x46]), (0xFB01, [0x46, 0x49]), (0xFB02, [0x46, 0x4C]),
   (0xFB03, [0x46, 0x46, 0x49]), (0xFB04, [0x46, 0x46, 0x4C]), (0xFB05, [0x53, 0x54]),
   (0xFB06, [0x53, 0x54]), (0xFB13, [0x544, 0x546]), (0xFB14, [0x544, 0x535]),
   (0xFB15, [0x544, 0x53B]), (0xFB16, [0x54E, 0x546]), (0xFB17, [0x544, 0x53D])]

end Compendium.Text

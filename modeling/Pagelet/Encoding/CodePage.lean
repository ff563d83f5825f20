import Pagelet.Encoding.Utf8

/-!
# One byte, one character

In these encodings the bytes below 128 are ASCII and each of the others stands
for one character of its own.
-/

namespace Pagelet
namespace Encoding

/-- The encodings of one byte to the character. -/
inductive CodePage
  | windows1252
  | windows1251
  | latin2
  | latin9
  /-- The bytes from 128 stand for characters of private use. -/
  | userDefined
deriving DecidableEq, Repr

namespace CodePage

/-- The characters of windows-1252 from 0x80 to 0x9F. -/
def windows1252Controls : Array Nat :=
  #[0x20AC, 0x0081, 0x201A, 0x0192, 0x201E, 0x2026, 0x2020, 0x2021,
    0x02C6, 0x2030, 0x0160, 0x2039, 0x0152, 0x008D, 0x017D, 0x008F,
    0x0090, 0x2018, 0x2019, 0x201C, 0x201D, 0x2022, 0x2013, 0x2014,
    0x02DC, 0x2122, 0x0161, 0x203A, 0x0153, 0x009D, 0x017E, 0x0178]

/-- The characters of windows-1251 from 0x80 to 0xFF. -/
def windows1251Upper : Array Nat :=
  #[0x0402, 0x0403, 0x201A, 0x0453, 0x201E, 0x2026, 0x2020, 0x2021,
    0x20AC, 0x2030, 0x0409, 0x2039, 0x040A, 0x040C, 0x040B, 0x040F,
    0x0452, 0x2018, 0x2019, 0x201C, 0x201D, 0x2022, 0x2013, 0x2014,
    0x0098, 0x2122, 0x0459, 0x203A, 0x045A, 0x045C, 0x045B, 0x045F,
    0x00A0, 0x040E, 0x045E, 0x0408, 0x00A4, 0x0490, 0x00A6, 0x00A7,
    0x0401, 0x00A9, 0x0404, 0x00AB, 0x00AC, 0x00AD, 0x00AE, 0x0407,
    0x00B0, 0x00B1, 0x0406, 0x0456, 0x0491, 0x00B5, 0x00B6, 0x00B7,
    0x0451, 0x2116, 0x0454, 0x00BB, 0x0458, 0x0405, 0x0455, 0x0457,
    0x0410, 0x0411, 0x0412, 0x0413, 0x0414, 0x0415, 0x0416, 0x0417,
    0x0418, 0x0419, 0x041A, 0x041B, 0x041C, 0x041D, 0x041E, 0x041F,
    0x0420, 0x0421, 0x0422, 0x0423, 0x0424, 0x0425, 0x0426, 0x0427,
    0x0428, 0x0429, 0x042A, 0x042B, 0x042C, 0x042D, 0x042E, 0x042F,
    0x0430, 0x0431, 0x0432, 0x0433, 0x0434, 0x0435, 0x0436, 0x0437,
    0x0438, 0x0439, 0x043A, 0x043B, 0x043C, 0x043D, 0x043E, 0x043F,
    0x0440, 0x0441, 0x0442, 0x0443, 0x0444, 0x0445, 0x0446, 0x0447,
    0x0448, 0x0449, 0x044A, 0x044B, 0x044C, 0x044D, 0x044E, 0x044F]

/-- The characters of ISO 8859-2 from 0xA0 to 0xFF. -/
def latin2Upper : Array Nat :=
  #[0x00A0, 0x0104, 0x02D8, 0x0141, 0x00A4, 0x013D, 0x015A, 0x00A7,
    0x00A8, 0x0160, 0x015E, 0x0164, 0x0179, 0x00AD, 0x017D, 0x017B,
    0x00B0, 0x0105, 0x02DB, 0x0142, 0x00B4, 0x013E, 0x015B, 0x02C7,
    0x00B8, 0x0161, 0x015F, 0x0165, 0x017A, 0x02DD, 0x017E, 0x017C,
    0x0154, 0x00C1, 0x00C2, 0x0102, 0x00C4, 0x0139, 0x0106, 0x00C7,
    0x010C, 0x00C9, 0x0118, 0x00CB, 0x011A, 0x00CD, 0x00CE, 0x010E,
    0x0110, 0x0143, 0x0147, 0x00D3, 0x00D4, 0x0150, 0x00D6, 0x00D7,
    0x0158, 0x016E, 0x00DA, 0x0170, 0x00DC, 0x00DD, 0x0162, 0x00DF,
    0x0155, 0x00E1, 0x00E2, 0x0103, 0x00E4, 0x013A, 0x0107, 0x00E7,
    0x010D, 0x00E9, 0x0119, 0x00EB, 0x011B, 0x00ED, 0x00EE, 0x010F,
    0x0111, 0x0144, 0x0148, 0x00F3, 0x00F4, 0x0151, 0x00F6, 0x00F7,
    0x0159, 0x016F, 0x00FA, 0x0171, 0x00FC, 0x00FD, 0x0163, 0x02D9]

/-- The places in which ISO 8859-15 differs from ISO 8859-1. -/
def latin9Changes : List (Nat × Nat) :=
  [(0xA4, 0x20AC), (0xA6, 0x0160), (0xA8, 0x0161), (0xB4, 0x017D),
    (0xB8, 0x017E), (0xBC, 0x0152), (0xBD, 0x0153), (0xBE, 0x0178)]

/-- The code point of a byte from 128. -/
def upper : CodePage → Nat → Nat
  | windows1252, byte => windows1252Controls.getD (byte - 0x80) byte
  | windows1251, byte => windows1251Upper.getD (byte - 0x80) byte
  | latin2, byte => if byte < 0xA0 then byte else latin2Upper.getD (byte - 0xA0) byte
  | latin9, byte => (latin9Changes.lookup byte).getD byte
  | userDefined, byte => 0xF700 + byte

/-- The character of a byte. -/
def decodeByte (page : CodePage) (byte : UInt8) : Char :=
  if byte < 0x80 then Char.ofNat byte.toNat else Char.ofNat (page.upper byte.toNat)

/-- The text of a sequence of bytes. -/
def decode (page : CodePage) (bytes : List UInt8) : List Char :=
  bytes.map page.decodeByte

end CodePage
end Encoding
end Pagelet

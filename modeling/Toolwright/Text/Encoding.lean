import Toolwright.Text.ByteOrder
import Toolwright.Text.Case
import Toolwright.Text.CodePage
import Toolwright.Text.Escape
import Toolwright.Text.Runs
import Toolwright.Text.Utf8

/-!
# Encodings

An encoding puts characters into bytes and reads them back. A marked one has a mark in front that
tells the order of its bytes; where the mark is missing, the low bytes go first.
-/

namespace Toolwright.Text

set_option autoImplicit false

inductive Encoding where
  | ascii
  | latin1
  | utf8 (marked : Bool)
  | utf16 (order : ByteOrder) (marked : Bool)
  | utf32 (order : ByteOrder) (marked : Bool)
  | page (p : CodePage)
  /-- Characters are written as escapes; a raw one writes only those that have no byte so. -/
  | escapes (isRaw : Bool)

namespace Encoding

/-- The name of an encoding as it is looked for: in lower case, with low lines for all that is
neither a letter nor a digit nor a point. -/
def plainName (name : String) : String :=
  let isKept (c : Char) : Bool := c.isAlphanum || c == '.'
  "_".intercalate ((runs (fun c => !isKept c) (lower name.toList)).map String.ofList)

def directNames : List String := ["utf_8", "utf8", "utf_16", "utf16", "utf_32", "utf32", "ascii",
  "us_ascii", "latin_1", "latin1", "iso_8859_1", "iso8859_1"]

def names : List (Encoding × List String) := [
  (.utf8 false, ["utf_8", "utf8", "u8", "utf", "utf8_ucs2", "utf8_ucs4", "cp65001"]),
  (.utf8 true, ["utf_8_sig"]),
  (.ascii, ["ascii", "646", "ansi_x3.4_1968", "ansi_x3_4_1968", "ansi_x3.4_1986", "cp367",
    "csascii", "ibm367", "iso646_us", "iso_646.irv_1991", "iso_ir_6", "us", "us_ascii"]),
  (.latin1, ["latin_1", "8859", "cp819", "csisolatin1", "ibm819", "iso8859", "iso8859_1",
    "iso_8859_1", "iso_8859_1_1987", "iso_ir_100", "l1", "latin", "latin1"]),
  (.utf16 .little true, ["utf_16", "u16", "utf16"]),
  (.utf16 .little false, ["utf_16_le", "unicodelittleunmarked", "utf_16le"]),
  (.utf16 .big false, ["utf_16_be", "unicodebigunmarked", "utf_16be"]),
  (.utf32 .little true, ["utf_32", "u32", "utf32"]),
  (.utf32 .little false, ["utf_32_le", "utf_32le"]),
  (.utf32 .big false, ["utf_32_be", "utf_32be"]),
  (.escapes false, ["unicode_escape"]),
  (.escapes true, ["raw_unicode_escape"])]

def ofName? (name : String) : Option Encoding :=
  let name := plainName name
  match names.find? fun row => row.2.contains name with
  | some row => some row.1
  | none => (CodePage.all.find? fun p => p.names.contains name).map .page

def otherCodes : List String := [
  "base64", "base_64", "base64_codec", "bz2", "bz2_codec", "hex", "hex_codec", "quopri",
  "quopri_codec", "quoted_printable", "quotedprintable", "rot13", "rot_13", "uu", "uu_codec", "zip",
  "zlib", "zlib_codec"]

def bytesOf? (e : Encoding) (c : Char) : Option (List UInt8) :=
  let n := c.toNat
  match e with
  | .ascii => if n < 0x80 then some [n.toUInt8] else none
  | .latin1 => if n < 0x100 then some [n.toUInt8] else none
  | .utf8 _ => some (String.singleton c).toUTF8.toList
  | .utf16 order _ =>
    if n < 0x10000 then some (order.write 2 n)
    else some (order.write 2 (0xD800 + (n - 0x10000) / 0x400) ++
      order.write 2 (0xDC00 + (n - 0x10000) % 0x400))
  | .utf32 order _ => some (order.write 4 n)
  | .page p => (p.byte? c).map ([·])
  | .escapes isRaw => some (escaped isRaw c)

def mark : Encoding → List UInt8
  | .utf8 true => [0xEF, 0xBB, 0xBF]
  | .utf16 order true => order.write 2 0xFEFF
  | .utf32 order true => order.write 4 0xFEFF
  | _ => []

def readOne (limit : Nat) (b : UInt8) : Reading :=
  if b.toNat < limit then .char (Char.ofNat b.toNat) else .broken [b]

/-- Reads units of two bytes, of which a high and a low half make one character. -/
def read16 (order : ByteOrder) : List UInt8 → List Reading
  | [] => []
  | [a] => [.broken [a]]
  | a :: b :: bs =>
    let n := order.read [a, b]
    if n < 0xD800 || 0xE000 ≤ n then .char (Char.ofNat n) :: read16 order bs
    else if 0xDC00 ≤ n then .broken [a, b] :: read16 order bs
    else
      match bs with
      | c :: d :: more =>
        let m := order.read [c, d]
        if 0xDC00 ≤ m && m < 0xE000 then
          .char (Char.ofNat (0x10000 + (n - 0xD800) * 0x400 + (m - 0xDC00))) :: read16 order more
        else .broken [a, b] :: read16 order (c :: d :: more)
      | bs => [.broken (a :: b :: bs)]

def read32 (order : ByteOrder) : List UInt8 → List Reading
  | a :: b :: c :: d :: bs =>
    let n := order.read [a, b, c, d]
    (if n.isValidChar then .char (Char.ofNat n) else .broken [a, b, c, d]) :: read32 order bs
  | [] => []
  | bs => [.broken bs]

/-- The encoding without a mark and the bytes behind the mark, if there is one. -/
def unmarked (e : Encoding) (bs : List UInt8) : Encoding × List UInt8 :=
  match e, bs with
  | .utf8 true, 0xEF :: 0xBB :: 0xBF :: bs => (.utf8 false, bs)
  | .utf16 _ true, 0xFF :: 0xFE :: bs => (.utf16 .little false, bs)
  | .utf16 _ true, 0xFE :: 0xFF :: bs => (.utf16 .big false, bs)
  | .utf32 _ true, 0xFF :: 0xFE :: 0 :: 0 :: bs => (.utf32 .little false, bs)
  | .utf32 _ true, 0 :: 0 :: 0xFE :: 0xFF :: bs => (.utf32 .big false, bs)
  | e, bs => (e, bs)

def read (e : Encoding) (bs : List UInt8) : List Reading :=
  match e.unmarked bs with
  | (.ascii, bs) => bs.map (readOne 0x80)
  | (.latin1, bs) => bs.map (readOne 0x100)
  | (.utf8 _, bs) => Utf8.read bs
  | (.utf16 order _, bs) => read16 order bs
  | (.utf32 order _, bs) => read32 order bs
  | (.page p, bs) => bs.map fun b =>
    match p.char? b with
    | some c => .char c
    | none => .broken [b]
  | (.escapes isRaw, bs) => readEscapes isRaw bs

end Encoding

end Toolwright.Text

import ClassReport.Charset.Encoder
import ClassReport.Charset.SingleByte
import ClassReport.Text.Blank
import ClassReport.Text.Utf16

/-!
# Charsets

The charsets that a table can be written in, by the labels of the WHATWG encoding standard, and the
bytes that each writes for a text. A character that a charset cannot write becomes a decimal
reference such as `&#128512;`, except in the Unicode charsets, which can write all. The charsets of
East Asia are written by encoders that are given.
-/

namespace ClassReport

namespace Charset

/-- Which byte of a code unit is written first. -/
inductive ByteOrder where
  | high
  | low
  deriving DecidableEq, Repr

/-- How characters become bytes. -/
inductive Coding where
  | utf8
  /-- Code units of two bytes each, with no mark in front. -/
  | utf16 (first : ByteOrder)
  /-- ASCII, and one byte for each code point of the table. -/
  | singleByte (upper : List Nat)
  /-- Codes of several bytes, as the encoder has them. -/
  | multiByte (encoder : Encoder)

end Charset

/-- A charset: its name, the labels it is known by, and how it writes text. -/
structure Charset where
  name : String
  coding : Charset.Coding
  labels : List String

namespace Charset

/-- The charset that is taken where none is named. -/
def utf8 : Charset where
  name := "UTF-8"
  coding := .utf8
  labels :=
    ["unicode-1-1-utf-8", "unicode11utf8", "unicode20utf8", "utf-8", "utf8", "x-unicode20utf8"]

/-- All charsets but UTF-8. The one named `replacement` stands for charsets that nobody should use,
and writes UTF-8. -/
def others (encoders : Encoders) : List Charset :=
  [ { name := "Big5", coding := .multiByte encoders.big5, labels :=
      ["big5", "big5-hkscs", "cn-big5", "csbig5", "x-x-big5"] },
    { name := "EUC-JP", coding := .multiByte encoders.eucJp, labels :=
      ["cseucpkdfmtjapanese", "euc-jp", "x-euc-jp"] },
    { name := "EUC-KR", coding := .multiByte encoders.eucKr, labels :=
      ["cseuckr", "csksc56011987", "euc-kr", "iso-ir-149", "korean", "ks_c_5601-1987",
        "ks_c_5601-1989", "ksc5601", "ksc_5601", "windows-949"] },
    { name := "GBK", coding := .multiByte encoders.gbk, labels :=
      ["chinese", "csgb2312", "csiso58gb231280", "gb2312", "gb_2312", "gb_2312-80", "gbk",
        "iso-ir-58", "x-gbk"] },
    { name := "IBM866", coding := .singleByte SingleByte.ibm866, labels :=
      ["866", "cp866", "csibm866", "ibm866"] },
    { name := "ISO-2022-JP", coding := .multiByte encoders.iso2022Jp, labels :=
      ["csiso2022jp", "iso-2022-jp"] },
    { name := "ISO-8859-10", coding := .singleByte SingleByte.iso8859Part10, labels :=
      ["csisolatin6", "iso-8859-10", "iso-ir-157", "iso8859-10", "iso885910", "l6",
        "latin6"] },
    { name := "ISO-8859-13", coding := .singleByte SingleByte.iso8859Part13, labels :=
      ["iso-8859-13", "iso8859-13", "iso885913"] },
    { name := "ISO-8859-14", coding := .singleByte SingleByte.iso8859Part14, labels :=
      ["iso-8859-14", "iso8859-14", "iso885914"] },
    { name := "ISO-8859-15", coding := .singleByte SingleByte.iso8859Part15, labels :=
      ["csisolatin9", "iso-8859-15", "iso8859-15", "iso885915", "iso_8859-15", "l9"] },
    { name := "ISO-8859-16", coding := .singleByte SingleByte.iso8859Part16, labels :=
      ["iso-8859-16"] },
    { name := "ISO-8859-2", coding := .singleByte SingleByte.iso8859Part2, labels :=
      ["csisolatin2", "iso-8859-2", "iso-ir-101", "iso8859-2", "iso88592", "iso_8859-2",
        "iso_8859-2:1987", "l2", "latin2"] },
    { name := "ISO-8859-3", coding := .singleByte SingleByte.iso8859Part3, labels :=
      ["csisolatin3", "iso-8859-3", "iso-ir-109", "iso8859-3", "iso88593", "iso_8859-3",
        "iso_8859-3:1988", "l3", "latin3"] },
    { name := "ISO-8859-4", coding := .singleByte SingleByte.iso8859Part4, labels :=
      ["csisolatin4", "iso-8859-4", "iso-ir-110", "iso8859-4", "iso88594", "iso_8859-4",
        "iso_8859-4:1988", "l4", "latin4"] },
    { name := "ISO-8859-5", coding := .singleByte SingleByte.iso8859Part5, labels :=
      ["csisolatincyrillic", "cyrillic", "iso-8859-5", "iso-ir-144", "iso8859-5",
        "iso88595", "iso_8859-5", "iso_8859-5:1988"] },
    { name := "ISO-8859-6", coding := .singleByte SingleByte.iso8859Part6, labels :=
      ["arabic", "asmo-708", "csiso88596e", "csiso88596i", "csisolatinarabic", "ecma-114",
        "iso-8859-6", "iso-8859-6-e", "iso-8859-6-i", "iso-ir-127", "iso8859-6",
        "iso88596", "iso_8859-6", "iso_8859-6:1987"] },
    { name := "ISO-8859-7", coding := .singleByte SingleByte.iso8859Part7, labels :=
      ["csisolatingreek", "ecma-118", "elot_928", "greek", "greek8", "iso-8859-7",
        "iso-ir-126", "iso8859-7", "iso88597", "iso_8859-7", "iso_8859-7:1987",
        "sun_eu_greek"] },
    { name := "ISO-8859-8", coding := .singleByte SingleByte.iso8859Part8, labels :=
      ["csiso88598e", "csisolatinhebrew", "hebrew", "iso-8859-8", "iso-8859-8-e",
        "iso-ir-138", "iso8859-8", "iso88598", "iso_8859-8", "iso_8859-8:1988", "visual"] },
    { name := "ISO-8859-8-I", coding := .singleByte SingleByte.iso8859Part8, labels :=
      ["csiso88598i", "iso-8859-8-i", "logical"] },
    { name := "KOI8-R", coding := .singleByte SingleByte.koi8R, labels :=
      ["cskoi8r", "koi", "koi8", "koi8-r", "koi8_r"] },
    { name := "KOI8-U", coding := .singleByte SingleByte.koi8U, labels :=
      ["koi8-ru", "koi8-u"] },
    { name := "Shift_JIS", coding := .multiByte encoders.shiftJis, labels :=
      ["csshiftjis", "ms932", "ms_kanji", "shift-jis", "shift_jis", "sjis", "windows-31j",
        "x-sjis"] },
    { name := "UTF-16BE", coding := .utf16 .high, labels :=
      ["unicodefffe", "utf-16be"] },
    { name := "UTF-16LE", coding := .utf16 .low, labels :=
      ["csunicode", "iso-10646-ucs-2", "ucs-2", "unicode", "unicodefeff", "utf-16",
        "utf-16le"] },
    { name := "gb18030", coding := .multiByte encoders.gb18030, labels :=
      ["gb18030"] },
    { name := "macintosh", coding := .singleByte SingleByte.macintosh, labels :=
      ["csmacintosh", "mac", "macintosh", "x-mac-roman"] },
    { name := "replacement", coding := .utf8, labels :=
      ["csiso2022kr", "hz-gb-2312", "iso-2022-cn", "iso-2022-cn-ext", "iso-2022-kr",
        "replacement"] },
    { name := "windows-1250", coding := .singleByte SingleByte.windows1250, labels :=
      ["cp1250", "windows-1250", "x-cp1250"] },
    { name := "windows-1251", coding := .singleByte SingleByte.windows1251, labels :=
      ["cp1251", "windows-1251", "x-cp1251"] },
    { name := "windows-1252", coding := .singleByte SingleByte.windows1252, labels :=
      ["ansi_x3.4-1968", "ascii", "cp1252", "cp819", "csisolatin1", "ibm819",
        "iso-8859-1", "iso-ir-100", "iso8859-1", "iso88591", "iso_8859-1",
        "iso_8859-1:1987", "l1", "latin1", "us-ascii", "windows-1252", "x-cp1252"] },
    { name := "windows-1253", coding := .singleByte SingleByte.windows1253, labels :=
      ["cp1253", "windows-1253", "x-cp1253"] },
    { name := "windows-1254", coding := .singleByte SingleByte.windows1254, labels :=
      ["cp1254", "csisolatin5", "iso-8859-9", "iso-ir-148", "iso8859-9", "iso88599",
        "iso_8859-9", "iso_8859-9:1989", "l5", "latin5", "windows-1254", "x-cp1254"] },
    { name := "windows-1255", coding := .singleByte SingleByte.windows1255, labels :=
      ["cp1255", "windows-1255", "x-cp1255"] },
    { name := "windows-1256", coding := .singleByte SingleByte.windows1256, labels :=
      ["cp1256", "windows-1256", "x-cp1256"] },
    { name := "windows-1257", coding := .singleByte SingleByte.windows1257, labels :=
      ["cp1257", "windows-1257", "x-cp1257"] },
    { name := "windows-1258", coding := .singleByte SingleByte.windows1258, labels :=
      ["cp1258", "windows-1258", "x-cp1258"] },
    { name := "windows-874", coding := .singleByte SingleByte.windows874, labels :=
      ["dos-874", "iso-8859-11", "iso8859-11", "iso885911", "tis-620", "windows-874"] },
    { name := "x-mac-cyrillic", coding := .singleByte SingleByte.macCyrillic, labels :=
      ["x-mac-cyrillic", "x-mac-ukrainian"] },
    { name := "x-user-defined", coding := .singleByte SingleByte.userDefined, labels :=
      ["x-user-defined"] } ]

def all (encoders : Encoders) : List Charset := utf8 :: others encoders

/-- A label in small letters, without white space at its ends. -/
def normalizeLabel (label : String) : String := (Blank.trim label).map Char.toLower

def ofLabel? (encoders : Encoders) (label : String) : Option Charset :=
  (all encoders).find? fun charset => charset.labels.contains (normalizeLabel label)

theorem ofLabel?_default (encoders : Encoders) : ofLabel? encoders "UTF-8" = some .utf8 := by
  have hlabel : utf8.labels.contains (normalizeLabel "UTF-8") = true := by decide +kernel
  exact List.find?_cons_of_pos hlabel

/-! ### Writing -/

/-- The byte of a character in a single-byte charset, if it has one. -/
def singleByte? (upper : List Nat) (c : Char) : Option UInt8 :=
  if c.toNat < 0x80 then some (UInt8.ofNat c.toNat)
  else (upper.idxOf? c.toNat).map fun place => UInt8.ofNat (0x80 + place)

def ByteOrder.bytes : ByteOrder → UInt16 → Bytes
  | .high => Utf16.bigEndian
  | .low => Utf16.littleEndian

def Coding.encode (coding : Coding) (text : String) : Bytes :=
  match coding with
  | .utf8 => utf8Bytes text
  | .utf16 first => (Utf16.encode text).flatMap first.bytes
  | .singleByte upper =>
    text.toList.flatMap fun c =>
      match singleByte? upper c with
      | some b => [b]
      | none => reference c
  | .multiByte encoder => encoder.write text.toList

def encode (charset : Charset) (text : String) : Bytes := charset.coding.encode text

end Charset

end ClassReport

import ClassReport.Charset.Iso2022Jp

/-!
# Encoders for kana

Encoders that know ASCII and kana, and write every other character as a reference. Real encoders have codes
for ideographs and hangul too; nothing that holds of all encoders depends on which they have.
-/

namespace ClassReport.Charset

theorem MultiByte.code?_plain (charset : MultiByte) {c : Char} (h : isPlain c = true) :
    charset.code? c = some [UInt8.ofNat c.toNat] := by
  rw [code?, if_pos (lt_of_isPlain h)]

namespace Iso2022Jp

theorem place_plain {c : Char} (h : isPlain c = true) :
    place .ascii c = (.ascii, [UInt8.ofNat c.toNat]) := by
  simp only [isPlain, Bool.and_eq_true, decide_eq_true_eq, Bool.not_eq_true'] at h
  rw [place, h.2]
  simp [h.1]

theorem encodeFrom_plain {c : Char} (h : isPlain c = true) (rest : List Char) :
    encodeFrom .ascii (c :: rest) = UInt8.ofNat c.toNat :: encodeFrom .ascii rest := by
  rw [encodeFrom, place_plain h]
  rfl

end Iso2022Jp

/-- The encoder of a charset that knows kana only. -/
def MultiByte.encoder (charset : MultiByte) : Encoder := .ofCodes charset.code? fun _ => charset.code?_plain

def Encoders.kana : Encoders where
  big5 := MultiByte.big5.encoder
  eucJp := MultiByte.eucJp.encoder
  eucKr := MultiByte.eucKr.encoder
  gb18030 := MultiByte.gb18030.encoder
  gbk := MultiByte.gbk.encoder
  iso2022Jp := ⟨Iso2022Jp.encodeFrom .ascii, rfl, fun _ rest h => Iso2022Jp.encodeFrom_plain h rest⟩
  shiftJis := MultiByte.shiftJis.encoder

end ClassReport.Charset

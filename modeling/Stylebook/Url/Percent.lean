import Stylebook.Text.Utf8

/-! Percent-decoding. Each run of ASCII characters is decoded by itself: its escapes stand for bytes, and
    the bytes are read as UTF-8 with a replacement character for each fault. -/

namespace Stylebook
namespace Url

/-- The bytes of ASCII text with its escapes; a percent sign without two hexadecimal digits stands for
    itself. -/
def percentBytes : Text → Utf8.Bytes
  | [] => []
  | '%' :: a :: b :: r =>
    match Text.hexValue? a, Text.hexValue? b with
    | some x, some y => UInt8.ofNat (16 * x + y) :: percentBytes r
    | _, _ => '%'.toUInt8 :: percentBytes (a :: b :: r)
  | c :: r => c.toUInt8 :: percentBytes r

/-- Decodes the run of ASCII text read so far, in reverse, and all that follows. -/
def percentDecodeFrom (run : Text) : Text → Text
  | [] => Utf8.decodeLenient (percentBytes run.reverse)
  | c :: r =>
    if c.toNat < 128 then percentDecodeFrom (c :: run) r
    else Utf8.decodeLenient (percentBytes run.reverse) ++ c :: percentDecodeFrom [] r

def percentDecode (t : Text) : Text := percentDecodeFrom [] t

end Url
end Stylebook

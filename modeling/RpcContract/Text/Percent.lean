import RpcContract.Json.Cursor

/-!
Percent escapes, which spell the bytes of a text.
-/

namespace RpcContract.Text

def percentBytes : List Char → List UInt8
  | '%' :: a :: b :: rest =>
    match Json.Cursor.hexDigit? a, Json.Cursor.hexDigit? b with
    | some m, some n => UInt8.ofNat (16 * m + n) :: percentBytes rest
    | _, _ => '%'.toUInt8 :: percentBytes (a :: b :: rest)
  | c :: rest => (String.singleton c).toUTF8.toList ++ percentBytes rest
  | [] => []

/-- A text with its percent escapes resolved; itself if they spell no text. -/
def percentDecoded (cs : List Char) : List Char :=
  match String.fromUTF8? ⟨(percentBytes cs).toArray⟩ with
  | some s => s.toList
  | none => cs

end RpcContract.Text

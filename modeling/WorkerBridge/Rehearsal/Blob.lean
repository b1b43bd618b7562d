/-
  WorkerBridge.Rehearsal.Blob

  Bytes described by how they are put together, so that long or malformed
  streams can be written down briefly.
-/
import WorkerBridge.Frame

namespace WorkerBridge

/-- A description of bytes. -/
inductive Blob where
  /-- The UTF-8 bytes of a text. -/
  | text (s : String)
  /-- The bytes themselves. -/
  | raw (bytes : ByteArray)
  /-- The same bytes several times. -/
  | copies (n : Nat) (piece : Blob)
  /-- A frame with the bytes as its body. -/
  | frame (body : Blob)
  /-- One part after the other. -/
  | parts (bs : List Blob)
deriving Inhabited

namespace Blob

mutual

/-- The bytes. Every text is edited before its bytes are taken. -/
def bytesWith (edit : String → String) : Blob → ByteArray
  | .text s => (edit s).toUTF8
  | .raw bytes => bytes
  | .copies n piece =>
    let once := bytesWith edit piece
    n.fold (fun _ _ acc => acc ++ once) ByteArray.empty
  | .frame body => Frame.bytes (bytesWith edit body)
  | .parts bs => allBytesWith edit ByteArray.empty bs

/-- The bytes of several parts, after those already put together. -/
def allBytesWith (edit : String → String) (acc : ByteArray) : List Blob → ByteArray
  | [] => acc
  | b :: rest => allBytesWith edit (acc ++ bytesWith edit b) rest

end

/-- The bytes. -/
def bytes (b : Blob) : ByteArray :=
  b.bytesWith id

end Blob

end WorkerBridge

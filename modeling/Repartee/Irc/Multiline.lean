import Repartee.Irc.Message

/-!
Multiline messages: the limits of a batch, the partition of a text into batches of wire lines,
the frames of a batch and the reassembly of its lines.
-/

namespace Repartee.Irc

open Text

def messageMaxBytes : Nat := 350
def multilineDefaultMaxLines : Nat := 24
def multilineMaxInboundLines : Nat := 100

structure MultilineLimits where
  maxBytes : Nat
  maxLines : Nat
  deriving DecidableEq

/-- One line of a batch. A continuation is joined to the line before it without a separator. -/
structure WireLine where
  text : Str
  concat : Bool
  deriving DecidableEq

/-- What a line adds to the text once another line stands before it. -/
def WireLine.joined (line : WireLine) : Str := if line.concat then line.text else '\n' :: line.text

def reassemble : List WireLine → Str
  | [] => []
  | line :: rest => line.text ++ rest.flatMap WireLine.joined

section Split

/-- Pieces cut at character boundaries, with the piece under construction. -/
def splitLosslessFrom (maxBytes : Nat) : Str → Str → List Str
  | cur, [] => if cur = [] then [] else [cur]
  | cur, ch :: rest =>
      if cur ≠ [] ∧ maxBytes < utf8Length cur + ch.utf8Size then
        cur :: splitLosslessFrom maxBytes [ch] rest
      else splitLosslessFrom maxBytes (cur ++ [ch]) rest

def splitLossless (line : Str) (maxBytes : Nat) : List Str := splitLosslessFrom maxBytes [] line

/-- The wire lines of one logical line: itself, or its pieces, all but the first continuations. -/
def logicalLine (line : Str) : List WireLine :=
  if utf8Length line ≤ messageMaxBytes then [⟨line, false⟩]
  else (splitLossless line messageMaxBytes).mapIdx fun i piece => ⟨piece, decide (0 < i)⟩

def bytesOf (pieces : List WireLine) : Nat := (pieces.map fun w => utf8Length w.text).sum

end Split

section Partition

/-- The batches closed so far, the one being filled, and its bytes. -/
structure Packing where
  batches : List (List WireLine)
  cur : List WireLine
  curBytes : Nat

def joinByte (cur : List WireLine) : Nat := if cur = [] then 0 else 1

/-- The batch is closed when the next logical line does not fit it. -/
def Packing.makeRoom (limits : MultilineLimits) (packing : Packing) (pieces : List WireLine) :
    Packing :=
  if packing.cur ≠ [] ∧ (limits.maxLines < packing.cur.length + pieces.length ∨
      limits.maxBytes < packing.curBytes + joinByte packing.cur + bytesOf pieces) then
    ⟨packing.batches ++ [packing.cur], [], 0⟩
  else packing

def Packing.append (packing : Packing) (pieces : List WireLine) : Packing :=
  ⟨packing.batches, packing.cur ++ pieces,
    packing.curBytes + (joinByte packing.cur + bytesOf pieces)⟩

/-- Packs one logical line, unless it fits no batch. -/
def packLine (limits : MultilineLimits) (packing : Packing) (pieces : List WireLine) :
    Option Packing :=
  if limits.maxLines < pieces.length ∨ limits.maxBytes < bytesOf pieces then none
  else some ((packing.makeRoom limits pieces).append pieces)

def Packing.flush (packing : Packing) : List (List WireLine) :=
  if packing.cur = [] then packing.batches else packing.batches ++ [packing.cur]

def partition (text : Str) (limits : MultilineLimits) : Option (List (List WireLine)) :=
  let logical := (text.splitOn '\n').map logicalLine
  if logical.all fun pieces => pieces.all fun w => w.text.isEmpty then none
  else (logical.foldlM (packLine limits) ⟨[], [], 0⟩).map Packing.flush

end Partition

section Frames

def multilineType : Str := "draft/multiline".toList

def lineTags (batchRef : Str) (line : WireLine) : List Tag :=
  ⟨batchKey, some batchRef⟩ :: if line.concat then [⟨concatKey, none⟩] else []

def lineFrame (target batchRef : Str) (line : WireLine) : Message :=
  ⟨some (lineTags batchRef line), none, .privmsg target line.text⟩

def multilineFrames (target batchRef : Str) (batch : List WireLine) : List Message :=
  Message.ofCommand (.batch ('+' :: batchRef) (some multilineType) (some [target])) ::
    batch.map (lineFrame target batchRef) ++
    [Message.ofCommand (.batch ('-' :: batchRef) none none)]

end Frames

end Repartee.Irc

import PlotMiner.Keys.Secret
import PlotMiner.Keys.WordList
import PlotMiner.Text.Decompose

/-!
# Mnemonics

A mnemonic writes a secret as 12, 15, 18, 21 or 24 words of eleven bits each. The last bits, one for
every three words, are the beginning of the digest of the others. The master key is drawn from the
words, not from the bits.
-/

namespace PlotMiner.Keys

open Keyed

/-- A mnemonic: its words, all of them in the list. -/
structure Mnemonic where
  words : List (List Char)

namespace Mnemonic

def isWordCount (n : Nat) : Bool := 12 ≤ n && n ≤ 24 && n % 3 == 0

/-- The indices of words in the list; `place` is the place of the first. -/
def indices (place : Nat) : List (List Char) → Except KeyError (List Nat)
  | [] => .ok []
  | w :: rest =>
    match wordList.idxOf? w with
    | none => .error (.unknownWord place)
    | some i => return i :: (← indices (place + 1) rest)

/-- Whether the last bits are the beginning of the digest of the others. -/
def checksumOk (indices : List Nat) : Bool :=
  let bits := indices.foldl (fun acc i => acc * 2048 + i) 0
  let checkBits := indices.length / 3
  let entropy := bytesOfNat (checkBits * 4) (bits >>> checkBits)
  (Sha256.hash entropy).toNat >>> (256 - checkBits) == bits % (1 <<< checkBits)

/-- Reads a mnemonic. White space of any kind separates the words, and letters may be given in any
style that decomposes into the plain ones. -/
def parse (text : String) : Except KeyError Mnemonic := do
  let words := Text.words (Text.decompose (Text.trimChars text.toList))
  if !isWordCount words.length then throw (.badWordCount words.length)
  let is ← indices 0 words
  if !checksumOk is then throw .badChecksum
  return ⟨words⟩

def seed (m : Mnemonic) : List UInt8 :=
  pbkdf2 sha512 (Text.utf8 (List.intercalate [' '] m.words)) (Text.utf8 "mnemonic".toList) 2048

end Mnemonic

def SecretKey.ofMnemonic (text : String) (gen : KeyGenerator := SecretKey.ofSeed) :
    Except KeyError SecretKey := do
  gen (← Mnemonic.parse text).seed

def SecretKey.farmerOfMnemonic (text : String) (gen : KeyGenerator := SecretKey.ofSeed) :
    Except KeyError SecretKey := do
  (← SecretKey.ofMnemonic text gen).farmer gen

end PlotMiner.Keys

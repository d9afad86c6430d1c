import SFrameRatchet.Crypto

/-! The short authentication string of `sas.ts`: six bytes of HKDF over the
secret that wrapped a chain key, shown as decimal groups and as emoji. -/
namespace SFrameRatchet.Sas
open BigEndian Crypto

structure EmojiEntry where
  emoji : String
  name : String
  deriving DecidableEq, Repr, Inhabited

structure SasData where
  decimal : List ℕ
  emoji : List EmojiEntry
  deriving DecidableEq, Repr

def sasInfo : Bytes := textEncode "sframe-ratchet-sas-v1"
def sasBytesLength : ℕ := 6
def sasDecimalGroupCount : ℕ := 3
def sasDecimalMod : ℕ := 100000
def sasEmojiCount : ℕ := 7

def sasEmojiTable : List EmojiEntry :=
  [ ⟨"🐶", "Dog"⟩, ⟨"🐱", "Cat"⟩, ⟨"🦁", "Lion"⟩, ⟨"🐎", "Horse"⟩, ⟨"🦄", "Unicorn"⟩, ⟨"🐷", "Pig"⟩,
    ⟨"🐘", "Elephant"⟩, ⟨"🐰", "Rabbit"⟩, ⟨"🐼", "Panda"⟩, ⟨"🐓", "Rooster"⟩, ⟨"🐧", "Penguin"⟩,
    ⟨"🐢", "Turtle"⟩, ⟨"🐟", "Fish"⟩, ⟨"🐙", "Octopus"⟩, ⟨"🦋", "Butterfly"⟩, ⟨"🌷", "Flower"⟩,
    ⟨"🌳", "Tree"⟩, ⟨"🌵", "Cactus"⟩, ⟨"🍄", "Mushroom"⟩, ⟨"🌏", "Globe"⟩, ⟨"🌙", "Moon"⟩, ⟨"☁️", "Cloud"⟩,
    ⟨"🔥", "Fire"⟩, ⟨"🍌", "Banana"⟩, ⟨"🍎", "Apple"⟩, ⟨"🍓", "Strawberry"⟩, ⟨"🌽", "Corn"⟩, ⟨"🍕", "Pizza"⟩,
    ⟨"🎂", "Cake"⟩, ⟨"❤️", "Heart"⟩, ⟨"😀", "Smiley"⟩, ⟨"🤖", "Robot"⟩, ⟨"🎩", "Hat"⟩, ⟨"👓", "Glasses"⟩,
    ⟨"🔧", "Spanner"⟩, ⟨"🎅", "Santa"⟩, ⟨"👍", "Thumbs Up"⟩, ⟨"☂️", "Umbrella"⟩, ⟨"⌛", "Hourglass"⟩,
    ⟨"⏰", "Clock"⟩, ⟨"🎁", "Gift"⟩, ⟨"💡", "Light Bulb"⟩, ⟨"📕", "Book"⟩, ⟨"✏️", "Pencil"⟩,
    ⟨"📎", "Paperclip"⟩, ⟨"✂️", "Scissors"⟩, ⟨"🔒", "Lock"⟩, ⟨"🔑", "Key"⟩, ⟨"🔨", "Hammer"⟩,
    ⟨"📞", "Telephone"⟩, ⟨"🏁", "Flag"⟩, ⟨"🚂", "Train"⟩, ⟨"🚲", "Bicycle"⟩, ⟨"✈️", "Aeroplane"⟩,
    ⟨"🚀", "Rocket"⟩, ⟨"🏆", "Trophy"⟩, ⟨"⚽", "Ball"⟩, ⟨"🎸", "Guitar"⟩, ⟨"🎺", "Trumpet"⟩, ⟨"🔔", "Bell"⟩,
    ⟨"⚓", "Anchor"⟩, ⟨"🎧", "Headphones"⟩, ⟨"📁", "Folder"⟩, ⟨"📌", "Pin"⟩]

/-- A byte of the string; reading past its end gives no bits. -/
def byteAt (sasBytes : Bytes) (index : ℕ) : ℕ := ((sasBytes[index]?).map UInt8.toNat).getD 0

def generateDecimalSas (sasBytes : Bytes) : Except JsError (List ℕ) :=
  if sasBytes.length < sasDecimalGroupCount * 2 then
    .error (.error
      s!"sas: need at least {sasDecimalGroupCount * 2} bytes for decimal, got {sasBytes.length}")
  else .ok ((List.range sasDecimalGroupCount).map fun i =>
    ((byteAt sasBytes (i * 2) <<< 8) ||| byteAt sasBytes (i * 2 + 1)) % sasDecimalMod)

/-- The `i`-th group of six bits, which may straddle two bytes. -/
def emojiIndex (sasBytes : Bytes) (i : ℕ) : ℕ :=
  let bitOffset := i * 6
  let byteIdx := bitOffset / 8
  let availBits := 8 - bitOffset % 8
  let lowBits := byteAt sasBytes byteIdx &&& (1 <<< availBits - 1)
  if availBits ≥ 6 then lowBits >>> (availBits - 6)
  else
    let needed := 6 - availBits
    (lowBits <<< needed) ||| (byteAt sasBytes (byteIdx + 1) >>> (8 - needed))

def generateEmojiSas (sasBytes : Bytes) : Except JsError (List EmojiEntry) :=
  if sasBytes.length < sasBytesLength then
    .error (.error s!"sas: need at least {sasBytesLength} bytes for emoji, got {sasBytes.length}")
  else .ok ((List.range sasEmojiCount).map fun i => (sasEmojiTable[emojiIndex sasBytes i]?).getD default)

section Derivation
variable {K : Type} (crypto : WebCrypto K)

def deriveSasBytes (dhSecret : Bytes) : Bytes :=
  crypto.hkdfExtractExpand dhSecret sasInfo sasBytesLength .sha256

def computeSas (dhSecret : Bytes) : Except JsError SasData := do
  let sasBytes := deriveSasBytes crypto dhSecret
  let decimal ← generateDecimalSas sasBytes
  let emoji ← generateEmojiSas sasBytes
  return { decimal, emoji }

/-- A string of the length that was asked for is shown. -/
theorem computeSas_ok {dhSecret : Bytes} (sized : (deriveSasBytes crypto dhSecret).length = sasBytesLength) :
    ∃ data, computeSas crypto dhSecret = .ok data := by
  simp [computeSas, generateDecimalSas, generateEmojiSas, sized, sasBytesLength, sasDecimalGroupCount, bind,
    Except.bind, pure, Except.pure]

end Derivation
end SFrameRatchet.Sas

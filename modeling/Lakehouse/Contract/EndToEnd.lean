/-
From the sockets of the extractor to the table.

A `Pipeline` holds every extractor process started so far, the broker with the
loader and the table, and what Kafka has not reported yet. A process that is
killed just takes no further step, so a run interleaves any number of starts,
crashes and restarts on both sides of the topic. The broker appends only what
librdkafka took, once or several times, and reports a delivery only after the
record is in the log.

* `Extraction.Sound`, `Pipeline.Sound` — the invariants.
* `sent_frames_are_stored` — what `messages_sent` counts is in the topic, and in
  the table once the loader has caught up.
* `stored_bars_were_read` — a bar of the table is in a frame that an extractor
  has read from its socket.
-/

import Mathlib.Tactic.Abel
import Lakehouse.Extractor.ProducerTask
import Lakehouse.Loader.CatchUp

namespace Lakehouse.Contract

open Extractor (Bytes)
open Loader (Settings Broker TopicPartition ConsumerRecord barsOf backlog published CaughtUp)

variable {Bar : Type}

/-- A process of the extractor, with the payloads whose delivery was reported. -/
structure Extraction where
  world : Extractor.World
  delivered : List Bytes

structure Pipeline (Bar : Type) where
  extractors : List Extraction
  loader : Loader.World Bytes Bar
  /-- The records of the topic whose delivery was not reported. -/
  unreported : List Bytes

inductive PipelineAction where
  | start
  | extractor (index : Nat) (a : Extractor.Action)
  | append (index : Nat) (tp : TopicPartition) (offset : Nat) (payload : Bytes)
  | loader (a : Loader.Action Bytes)

/-- The payloads librdkafka took. -/
def accepted (w : Extractor.World) : List Bytes :=
  (w.producer.finished.filter Extractor.Producer.Finished.accepted).map
    Extractor.Producer.Finished.payload

/-- The payloads of the messages the process has read. -/
def payloadsRead (w : Extractor.World) : List Bytes :=
  w.ws.read.filterMap Extractor.Ws.Message.payload?

/-- The payload a resolved delivery future reports as delivered. -/
def reported (w : Extractor.World) : Extractor.Action → Option Bytes
  | .prodPollInflight (some (index, .delivered)) _ => w.producer.inflight[index]?
  | _ => none

namespace Pipeline

variable (cfg : Extractor.Config) (s : Settings Bytes Bar) (p : Pipeline Bar)

/-- A process of the extractor takes a step. -/
def extractorStep (index : Nat) (e : Extraction) (a : Extractor.Action) : Option (Pipeline Bar) :=
  (Extractor.step cfg e.world a).bind fun w =>
    match reported e.world a with
    | none => some { p with extractors := p.extractors.set index ⟨w, e.delivered⟩ }
    | some payload =>
        if payload ∈ p.unreported then
          some { p with
            extractors := p.extractors.set index ⟨w, e.delivered ++ [payload]⟩
            unreported := p.unreported.erase payload }
        else none

/-- The broker appends a record for a payload librdkafka took, whether the
process still lives or not. -/
def append (e : Extraction) (tp : TopicPartition) (offset : Nat) (payload : Bytes) :
    Option (Pipeline Bar) :=
  if payload ∈ accepted e.world ∧ tp.topic = cfg.kafka_topic ∧ tp ∈ p.loader.broker.partitions then
    (Loader.Main.produce p.loader tp offset payload).map fun w =>
      { p with loader := w, unreported := p.unreported ++ [payload] }
  else none

def step : PipelineAction → Option (Pipeline Bar)
  | .start => some { p with extractors := p.extractors ++ [⟨Extractor.World.new cfg, []⟩] }
  | .extractor index a => (p.extractors[index]?).bind fun e => extractorStep cfg p index e a
  | .append index tp offset payload =>
      (p.extractors[index]?).bind fun e => append cfg p e tp offset payload
  | .loader (.produce _ _ _) => none
  | .loader a => (Loader.Main.step s p.loader a).map fun w => { p with loader := w }

/-- No extractor has run, and nothing is in the topic. -/
def Initial : Prop :=
  p.extractors = [] ∧ p.unreported = [] ∧ Loader.Main.Initial p.loader ∧
    ∀ tp, (p.loader.broker.log tp).records = []

def system : Transition.System (Pipeline Bar) PipelineAction := ⟨Initial, step cfg s⟩

/-- All payloads whose delivery was reported. -/
def delivered : List Bytes := p.extractors.flatMap Extraction.delivered

end Pipeline

/-! ### One extractor process -/

/-- What is reported and in flight, librdkafka took; what it took was read. -/
structure Extraction.Sound (cfg : Extractor.Config) (e : Extraction) : Prop where
  reachable : (Extractor.system cfg).Reachable e.world
  counted : e.delivered.length = e.world.metrics.messages_sent
  taken : (e.delivered : Multiset Bytes) + (e.world.producer.inflight : Multiset Bytes) ≤
    (accepted e.world : Multiset Bytes)

/-- What a step does to the deliveries: librdkafka may take a payload, and a
payload in flight may be reported. -/
structure Settles (w w' : Extractor.World) (reported : Option Bytes) : Prop where
  sent : w'.metrics.messages_sent = w.metrics.messages_sent + reported.toList.length
  taken : ∃ new, accepted w' = accepted w ++ new ∧
    (reported.toList : Multiset Bytes) + (w'.producer.inflight : Multiset Bytes) ≤
      (w.producer.inflight : Multiset Bytes) + (new : Multiset Bytes)

section Extractor

variable {cfg : Extractor.Config} {w w' : Extractor.World}

theorem settles_of_same (hproducer : w'.producer.finished = w.producer.finished)
    (hinflight : w'.producer.inflight = w.producer.inflight)
    (hsent : w'.metrics.messages_sent = w.metrics.messages_sent) : Settles w w' none where
  sent := hsent
  taken := by
    refine ⟨[], ?_, ?_⟩
    · simp [accepted, hproducer]
    · simp [hinflight]

theorem settles_of_environment (h : Extractor.Producer.Environment w w') : Settles w w' none := by
  apply settles_of_same
  · rw [h.producer]
  · rw [h.producer]
  · exact h.sent

/-- The end of the loop touches no delivery. -/
theorem Settles.finish {reported : Option Bytes} (h : Settles w w' reported) :
    Settles w (Extractor.Producer.finish w') reported := ⟨h.sent, h.taken⟩

theorem settles_pollShutdown (h : Extractor.Producer.pollShutdown w = some w') :
    Settles w w' none := by
  unfold Extractor.Producer.pollShutdown at h
  split at h
  · split at h
    · split at h
      · cases h
        exact settles_of_same rfl rfl rfl
      · cases h
        exact settles_of_same rfl rfl rfl
    · split at h
      · cases h
        exact settles_of_same rfl rfl rfl
      · cases h
        exact settles_of_same rfl rfl rfl
  · simp at h

theorem settles_pollRecv (h : Extractor.Producer.pollRecv cfg w = some w') :
    Settles w w' none := by
  unfold Extractor.Producer.pollRecv at h
  split at h
  · split at h
    · split at h
      · cases h
        exact settles_of_same rfl rfl rfl
      · cases h
        exact settles_of_same rfl rfl rfl
      · dsimp only at h
        split at h
        · cases h
          exact settles_of_same rfl rfl rfl
        · cases h
          exact settles_of_same rfl rfl rfl
    · cases h
      exact settles_of_same rfl rfl rfl
  · simp at h

theorem settles_sendResult {reply : Extractor.Producer.SendReply}
    (h : Extractor.Producer.sendResult cfg w reply = some w') : Settles w w' none := by
  unfold Extractor.Producer.sendResult at h
  split at h
  · rename_i payload hpc
    cases reply with
    | accepted =>
        cases h
        refine ⟨rfl, [payload], ?_, ?_⟩
        · simp [accepted, Extractor.Producer.record]
        · rw [Multiset.coe_add]
          exact le_refl _
    | queueFull =>
        cases h
        exact settles_of_same rfl rfl rfl
    | failed e =>
        cases h
        refine ⟨rfl, [], ?_, ?_⟩
        · simp [accepted]
        · simp
  · simp at h

/-- A delivery that resolved leaves the payloads in flight. -/
theorem settles_countDelivery {index : Nat} (result : Extractor.Producer.DeliveryResult)
    (now_ms : Int) (hindex : index < w.producer.inflight.length) :
    Settles w (Extractor.Producer.countDelivery w index result now_ms)
      (reported w (.prodPollInflight (some (index, result)) now_ms)) := by
  have hsplit : (w.producer.inflight : Multiset Bytes) =
      w.producer.inflight[index] ::ₘ (w.producer.inflight.eraseIdx index : Multiset Bytes) := by
    rw [Multiset.cons_coe, Multiset.coe_eq_coe]
    exact (List.getElem_cons_eraseIdx_perm hindex).symm
  have hget : w.producer.inflight[index]? = some w.producer.inflight[index] :=
    List.getElem?_eq_getElem hindex
  cases result with
  | delivered =>
      have hreported : reported w (.prodPollInflight (some (index, .delivered)) now_ms) =
          some w.producer.inflight[index] := hget
      rw [hreported]
      refine ⟨rfl, [], ?_, ?_⟩
      · simp [accepted, Extractor.Producer.countDelivery]
      · rw [hsplit]
        simp [Extractor.Producer.countDelivery]
  | failed e =>
      refine ⟨rfl, [], ?_, ?_⟩
      · simp [accepted, Extractor.Producer.countDelivery]
      · rw [hsplit]
        simpa [reported, Extractor.Producer.countDelivery] using (List.sublist_cons_self _ _).subperm
  | canceled =>
      refine ⟨rfl, [], ?_, ?_⟩
      · simp [accepted, Extractor.Producer.countDelivery]
      · rw [hsplit]
        simpa [reported, Extractor.Producer.countDelivery] using (List.sublist_cons_self _ _).subperm

theorem settles_pollInflight {ready : Option (Nat × Extractor.Producer.DeliveryResult)}
    {now_ms : Int} (h : Extractor.Producer.pollInflight w ready now_ms = some w') :
    Settles w w' (reported w (.prodPollInflight ready now_ms)) := by
  unfold Extractor.Producer.pollInflight at h
  split at h
  · split at h
    · rename_i index result
      split at h
      · rename_i hindex
        cases h
        have hsettles := settles_countDelivery result now_ms hindex
        unfold Extractor.Producer.breakIfDrained
        split
        · exact hsettles.finish
        · exact hsettles
      · simp at h
    · cases h
      exact settles_of_same rfl rfl rfl
  · simp at h

theorem settles_of_step {a : Extractor.Action} (h : Extractor.step cfg w a = some w') :
    Settles w w' (reported w a) := by
  obtain ⟨hws, hf⟩ | ⟨hproducer, _⟩ | hf | htorn := Extractor.step_cases h
  · cases a with
    | prodPollInflight ready now_ms => simp [Extractor.Action.ofWs] at hws
    | _ => exact settles_of_environment hf.environment
  · cases a with
    | prodPollShutdown => exact settles_pollShutdown h
    | prodPollInflight ready now_ms => exact settles_pollInflight h
    | prodPollRecv => exact settles_pollRecv h
    | sendResult reply => exact settles_sendResult h
    | _ => simp [Extractor.Action.ofProducer] at hproducer
  · cases a with
    | prodPollInflight ready now_ms => exact settles_pollInflight h
    | _ => exact settles_of_environment hf.toFrame.environment
  · cases a with
    | prodPollInflight ready now_ms => exact settles_pollInflight h
    | _ => exact settles_of_environment htorn.frame.environment

theorem Extraction.Sound.step {e : Extraction} (he : e.Sound cfg) {a : Extractor.Action}
    (h : Extractor.step cfg e.world a = some w') :
    Extraction.Sound cfg ⟨w', e.delivered ++ (reported e.world a).toList⟩ := by
  obtain ⟨hsent, new, haccepted, hmoved⟩ := settles_of_step h
  constructor
  · exact he.reachable.step h
  · rw [List.length_append, he.counted, hsent]
  · rw [haccepted, ← Multiset.coe_add, ← Multiset.coe_add, add_assoc]
    calc (e.delivered : Multiset Bytes) + ((reported e.world a).toList + w'.producer.inflight)
        ≤ e.delivered + (e.world.producer.inflight + new) := add_le_add_right hmoved _
      _ = e.delivered + e.world.producer.inflight + new := (add_assoc _ _ _).symm
      _ ≤ accepted e.world + new := add_le_add_left he.taken _

theorem extraction_start : Extraction.Sound cfg ⟨Extractor.World.new cfg, []⟩ where
  reachable := .init rfl
  counted := rfl
  taken := by simp [Extractor.World.new, Extractor.Producer.new]

/-- What librdkafka took was read before. -/
theorem accepted_sublist (h : (Extractor.system cfg).Reachable w) :
    (accepted w).Sublist (payloadsRead w) := by
  have hstream := (Extractor.reachable_sound h).stream
  have hfinished : (w.producer.finished.map Extractor.Producer.Finished.payload).Sublist
      (payloadsRead w) := by
    change _ = payloadsRead w at hstream
    rw [← hstream]
    exact List.sublist_append_left _ _
  exact (List.filter_sublist.map _).trans hfinished

end Extractor

/-! ### The topic -/

/-- The payloads of all records of the topic. -/
def values (broker : Broker Bytes) : Multiset Bytes :=
  ∑ tp ∈ broker.partitions.toFinset,
    (((broker.log tp).records.map ConsumerRecord.value : List Bytes) : Multiset Bytes)

theorem values_of_sameLogs {broker broker' : Broker Bytes}
    (h : Loader.Main.SameLogs broker broker') : values broker' = values broker := by
  obtain ⟨hpartitions, hlog⟩ := h
  unfold values
  rw [hpartitions, hlog]

theorem values_produce {broker : Broker Bytes} {tp : TopicPartition} {offset : Nat}
    {payload : Bytes} (hend : (broker.log tp).endOffset ≤ offset) (htp : tp ∈ broker.partitions) :
    values (broker.produce tp offset payload hend) = values broker + {payload} := by
  have hlog : ∀ other, (((broker.produce tp offset payload hend).log other).records.map
      ConsumerRecord.value : Multiset Bytes) =
        ((broker.log other).records.map ConsumerRecord.value : List Bytes) +
          if other = tp then {payload} else 0 := by
    intro other
    by_cases hother : other = tp
    · subst hother
      rw [if_pos rfl]
      simp [Broker.produce, Loader.PartitionLog.append, ← Multiset.coe_add]
    · simp [Broker.produce, hother]
  calc values (broker.produce tp offset payload hend)
      = ∑ other ∈ broker.partitions.toFinset,
          ((((broker.log other).records.map ConsumerRecord.value : List Bytes) : Multiset Bytes) +
            if other = tp then {payload} else 0) := Finset.sum_congr rfl fun other _ => hlog other
    _ = values broker + {payload} := by
        rw [Finset.sum_add_distrib, Finset.sum_ite_eq', if_pos (List.mem_toFinset.mpr htp), values]

/-- The bars of a payload. -/
def barsIn (decode : Bytes → Except String (List Bar)) (payload : Bytes) : List Bar :=
  match decode payload with
  | .ok bars => bars
  | .error _ => []

theorem barsOf_eq (decode : Bytes → Except String (List Bar)) (records : List (ConsumerRecord Bytes)) :
    barsOf decode records = (records.map ConsumerRecord.value).flatMap (barsIn decode) := by
  rw [List.flatMap_map]
  rfl

/-- The bars of many payloads, as an additive map. -/
def barsInAll (decode : Bytes → Except String (List Bar)) : Multiset Bytes →+ Multiset Bar where
  toFun payloads := payloads.bind fun payload => (barsIn decode payload : Multiset Bar)
  map_zero' := Multiset.zero_bind _
  map_add' first second := Multiset.add_bind first second _

theorem barsInAll_coe (decode : Bytes → Except String (List Bar)) (payloads : List Bytes) :
    barsInAll decode (payloads : Multiset Bytes) =
      ((payloads.flatMap (barsIn decode) : List Bar) : Multiset Bar) :=
  Multiset.coe_bind payloads (barsIn decode)

theorem slice_all {Payload : Type} (l : Loader.PartitionLog Payload) :
    l.slice l.beginning l.endOffset = l.records := by
  refine List.filter_eq_self.mpr ?_
  intro r hr
  simp only [Bool.and_eq_true, decide_eq_true_eq]
  exact ⟨l.beginning_le r hr, Loader.PartitionLog.offset_lt_endOffset hr⟩

theorem published_eq (decode : Bytes → Except String (List Bar)) (broker : Broker Bytes) :
    published decode broker = barsInAll decode (values broker) := by
  unfold published backlog values
  rw [map_sum]
  refine Finset.sum_congr rfl fun tp _ => ?_
  rw [slice_all, barsOf_eq, barsInAll_coe]

/-! ### The pipeline -/

/-- The records of the topic are those reported and those not reported, and
librdkafka took every one of them. -/
structure Pipeline.Sound (cfg : Extractor.Config) (s : Settings Bytes Bar) (p : Pipeline Bar) :
    Prop where
  extractors : ∀ e ∈ p.extractors, e.Sound cfg
  loader : (Loader.Main.system s).Reachable p.loader
  topic : values p.loader.broker =
    (p.unreported : Multiset Bytes) + (p.delivered : Multiset Bytes)
  taken : ∀ payload ∈ p.unreported, ∃ e ∈ p.extractors, payload ∈ accepted e.world

section Pipeline

variable {cfg : Extractor.Config} {s : Settings Bytes Bar} {p p' : Pipeline Bar}

theorem Pipeline.Sound.start (hp : p.Sound cfg s) :
    Pipeline.Sound cfg s { p with extractors := p.extractors ++ [⟨Extractor.World.new cfg, []⟩] } where
  extractors e he := by
    rcases List.mem_append.mp he with he | he
    · exact hp.extractors e he
    · rw [List.mem_singleton.mp he]
      exact extraction_start
  loader := hp.loader
  topic := by simpa [Pipeline.delivered] using hp.topic
  taken payload hpayload := by
    obtain ⟨e, he, haccepted⟩ := hp.taken payload hpayload
    exact ⟨e, List.mem_append_left _ he, haccepted⟩

/-- A process has taken a step, and its report, if there is one, was of a record
of the topic. -/
theorem Pipeline.Sound.extractor (hp : p.Sound cfg s) {index : Nat} {e : Extraction}
    (he : p.extractors[index]? = some e) {a : Extractor.Action} {w : Extractor.World}
    (h : Extractor.step cfg e.world a = some w) (unreported : List Bytes)
    (hunreported : (p.unreported : Multiset Bytes) =
      ((reported e.world a).toList : Multiset Bytes) + (unreported : Multiset Bytes)) :
    Pipeline.Sound cfg s { p with
      extractors := p.extractors.set index ⟨w, e.delivered ++ (reported e.world a).toList⟩
      unreported := unreported } := by
  obtain ⟨hindex, hget⟩ := List.getElem?_eq_some_iff.mp he
  obtain ⟨before, after, hsplit, -, hset⟩ := @List.exists_of_set _ index
    ⟨w, e.delivered ++ (reported e.world a).toList⟩ p.extractors hindex
  rw [hget] at hsplit
  have hmem : e ∈ p.extractors := hsplit ▸ List.mem_append_right _ List.mem_cons_self
  have hbefore : ∀ other ∈ before, other ∈ p.extractors :=
    fun other hother => hsplit ▸ List.mem_append_left _ hother
  have hafter : ∀ other ∈ after, other ∈ p.extractors :=
    fun other hother => hsplit ▸ List.mem_append_right _ (List.mem_cons_of_mem _ hother)
  rw [hset]
  constructor
  · intro other hother
    rcases List.mem_append.mp hother with hother | hother
    · exact hp.extractors other (hbefore other hother)
    · rcases List.mem_cons.mp hother with rfl | hother
      · exact (hp.extractors e hmem).step h
      · exact hp.extractors other (hafter other hother)
  · exact hp.loader
  · rw [hp.topic, hunreported]
    unfold Pipeline.delivered
    rw [hsplit]
    simp only [List.flatMap_append, List.flatMap_cons, ← Multiset.coe_add]
    abel
  · intro payload hpayload
    have hstill : payload ∈ p.unreported := by
      rw [← Multiset.mem_coe, hunreported]
      exact Multiset.mem_add.mpr (.inr (Multiset.mem_coe.mpr hpayload))
    obtain ⟨other, hother, haccepted⟩ := hp.taken payload hstill
    rw [hsplit] at hother
    rcases List.mem_append.mp hother with hother | hother
    · exact ⟨other, List.mem_append_left _ hother, haccepted⟩
    rcases List.mem_cons.mp hother with rfl | hother
    · refine ⟨_, List.mem_append_right _ List.mem_cons_self, ?_⟩
      obtain ⟨_, new, hnew, _⟩ := settles_of_step h
      rw [hnew]
      exact List.mem_append_left _ haccepted
    · exact ⟨other, List.mem_append_right _ (List.mem_cons_of_mem _ hother), haccepted⟩

theorem Pipeline.Sound.extractorStep (hp : p.Sound cfg s) {index : Nat} {e : Extraction}
    (he : p.extractors[index]? = some e) {a : Extractor.Action}
    (h : Pipeline.extractorStep cfg p index e a = some p') : p'.Sound cfg s := by
  obtain ⟨w, hstep, h⟩ := Option.bind_eq_some_iff.mp h
  cases hreported : reported e.world a with
  | none =>
      rw [hreported] at h
      cases h
      have hsound := hp.extractor he hstep p.unreported (by simp [hreported])
      simpa [hreported] using hsound
  | some payload =>
      rw [hreported] at h
      dsimp only at h
      split at h
      · rename_i hmem
        cases h
        have hsound := hp.extractor he hstep (p.unreported.erase payload) (by
          rw [hreported]
          exact Multiset.coe_eq_coe.mpr (List.perm_cons_erase hmem))
        simpa [hreported] using hsound
      · simp at h

theorem Pipeline.Sound.append (hp : p.Sound cfg s) {e : Extraction} (he : e ∈ p.extractors)
    {tp : TopicPartition} {offset : Nat} {payload : Bytes}
    (h : Pipeline.append cfg p e tp offset payload = some p') : p'.Sound cfg s := by
  unfold Pipeline.append at h
  split at h
  · rename_i hguard
    obtain ⟨haccepted, _, htp⟩ := hguard
    obtain ⟨w, hproduce, rfl⟩ := Option.map_eq_some_iff.mp h
    constructor
    · exact hp.extractors
    · exact hp.loader.step (a := .produce tp offset payload) hproduce
    · unfold Loader.Main.produce at hproduce
      split at hproduce
      · cases hproduce
        dsimp only
        rw [values_produce _ htp, hp.topic]
        simp only [← Multiset.coe_add, Multiset.coe_singleton, Pipeline.delivered]
        abel
      · simp at hproduce
    · intro other hother
      rcases List.mem_append.mp hother with hother | hother
      · exact hp.taken other hother
      · rw [List.mem_singleton.mp hother]
        exact ⟨e, he, haccepted⟩
  · simp at h

/-- The loader appends nothing. -/
theorem values_loader {w w' : Loader.World Bytes Bar} {a : Loader.Action Bytes}
    (hnot : ∀ tp offset payload, a ≠ .produce tp offset payload)
    (h : Loader.Main.step s w a = some w') : values w'.broker = values w.broker := by
  cases Loader.Main.step_cases h with
  | produce => exact absurd rfl (hnot _ _ _)
  | startRefused => rfl
  | startFailed => rfl
  | started => rfl
  | process _ h => exact values_of_sameLogs (Loader.Main.sameLogs_processStep h)

theorem Pipeline.Sound.loaderStep (hp : p.Sound cfg s) {a : Loader.Action Bytes}
    {w : Loader.World Bytes Bar} (hnot : ∀ tp offset payload, a ≠ .produce tp offset payload)
    (h : Loader.Main.step s p.loader a = some w) : Pipeline.Sound cfg s { p with loader := w } where
  extractors := hp.extractors
  loader := hp.loader.step h
  topic := (values_loader hnot h).trans hp.topic
  taken := hp.taken

theorem Pipeline.Sound.step (hp : p.Sound cfg s) {a : PipelineAction}
    (h : Pipeline.step cfg s p a = some p') : p'.Sound cfg s := by
  cases a with
  | start =>
      cases h
      exact hp.start
  | extractor index a =>
      obtain ⟨e, he, h⟩ := Option.bind_eq_some_iff.mp h
      exact hp.extractorStep he h
  | append index tp offset payload =>
      obtain ⟨e, he, h⟩ := Option.bind_eq_some_iff.mp h
      exact hp.append (List.mem_of_getElem? he) h
  | loader a =>
      cases a with
      | produce tp offset payload => simp [Pipeline.step] at h
      | _ =>
          obtain ⟨w, hw, rfl⟩ := Option.map_eq_some_iff.mp h
          exact hp.loaderStep (by simp) hw

theorem Pipeline.sound_of_initial (h : Pipeline.Initial p) : p.Sound cfg s := by
  obtain ⟨hextractors, hunreported, hloader, hlogs⟩ := h
  constructor
  · simp [hextractors]
  · exact .init hloader
  · simp [values, hlogs, hextractors, hunreported, Pipeline.delivered]
  · simp [hunreported]

theorem Pipeline.sound_of_reachable (h : (Pipeline.system cfg s).Reachable p) : p.Sound cfg s := by
  induction h with
  | init hinit => exact Pipeline.sound_of_initial hinit
  | step _ hstep ih => exact ih.step hstep

end Pipeline

/-! ### One frame -/

/-- A frame is a list of bars, and two of them fill a batch. -/
def frameSettings : Settings Bytes UInt8 where
  topic := "bars"
  maxRecords := 2
  maxPollRecords := 1
  maxWait := Loader.Duration.ofSeconds 300
  heartbeatInterval := Loader.Duration.ofSeconds 60
  stallThreshold := Loader.Duration.ofSeconds 900
  decodeFrame := .ok
  hash := fun _ => ""

def emptyPipeline : Pipeline UInt8 where
  extractors := []
  loader :=
    { broker := ⟨[Loader.Main.samplePartition], List.nodup_singleton _, fun _ => .empty 0,
        fun _ => none⟩
      table := ⟨"gs://warehouse/bars", [], []⟩
      output := []
      loader := none }
  unreported := []

theorem emptyPipeline_initial : (Pipeline.system Extractor.sampleConfig frameSettings).init emptyPipeline :=
  ⟨rfl, rfl, ⟨fun _ => rfl, rfl, rfl, rfl⟩, fun _ => rfl⟩

/-- The extractor reads a frame and hands it to librdkafka. -/
def frameTaken : List Extractor.Action :=
  [.startAttempt, .setup (.ok ()), .wsPollShutdown, .wsPollRead (some (.message (.binary [7, 8]))) 1,
   .send, .prodPollShutdown, .prodPollInflight none 1, .prodPollRecv, .sendResult .accepted]

/-- The loader reads the frame and flushes it. -/
def frameFlushed : List (Loader.Action Bytes) :=
  [.start none (Loader.Main.second 2), .loopTest, .assign,
   .poll (some Loader.Main.samplePartition) (Loader.Main.second 2),
   .announce (Loader.Main.second 2), .writeDataFile (.written 100 100) (Loader.Main.second 2),
   .commitTable .committed (Loader.Main.second 2), .commitOffsets .committed (Loader.Main.second 2)]

def frameRun : List PipelineAction :=
  .start :: frameTaken.map (.extractor 0) ++
    [.append 0 Loader.Main.samplePartition 0 [7, 8], .extractor 0 .prodPollShutdown,
     .extractor 0 (.prodPollInflight (some (0, .delivered)) 2)] ++
    frameFlushed.map .loader

theorem frameRun_facts : ∃ p,
    (Pipeline.system Extractor.sampleConfig frameSettings).run emptyPipeline frameRun = some p ∧
      p.delivered = [[7, 8]] ∧ p.loader.table.bars = [7, 8] ∧
      CaughtUp frameSettings.decodeFrame p.loader.broker := by
  refine ⟨_, rfl, rfl, rfl, ?_⟩
  intro tp htp r hr hlow
  obtain rfl := List.mem_singleton.mp htp
  obtain rfl := List.mem_singleton.mp hr
  exact absurd hlow (by decide)

/-! ### What arrives -/

section Arrival

variable {cfg : Extractor.Config} {s : Settings Bytes Bar} {p : Pipeline Bar}

/-- Nothing is invented on the way: a bar of the table is one of a payload that
some extractor process has read from its socket and librdkafka took from it. -/
theorem stored_bars_were_read (h : (Pipeline.system cfg s).Reachable p) {bar : Bar}
    (hbar : bar ∈ p.loader.table.bars) :
    ∃ e ∈ p.extractors, ∃ payload ∈ payloadsRead e.world, payload ∈ accepted e.world ∧
      ∃ bars, s.decodeFrame payload = .ok bars ∧ bar ∈ bars := by
  have hp := Pipeline.sound_of_reachable h
  have hpublished := Loader.Main.published_of_mem_table hp.loader hbar
  rw [published_eq] at hpublished
  obtain ⟨payload, hvalue, hbars⟩ := Multiset.mem_bind.mp hpublished
  have hdecode : ∃ bars, s.decodeFrame payload = .ok bars ∧ bar ∈ bars := by
    rw [barsIn, Multiset.mem_coe] at hbars
    split at hbars
    · rename_i bars hdecode
      exact ⟨bars, hdecode, hbars⟩
    · simp at hbars
  have htaken : ∃ e ∈ p.extractors, payload ∈ accepted e.world := by
    rw [hp.topic] at hvalue
    rcases Multiset.mem_add.mp hvalue with hopen | hdone
    · exact hp.taken payload (Multiset.mem_coe.mp hopen)
    · obtain ⟨e, he, hdelivered⟩ := List.mem_flatMap.mp (Multiset.mem_coe.mp hdone)
      refine ⟨e, he, ?_⟩
      have hle := (Multiset.le_add_right _ _).trans (hp.extractors e he).taken
      exact Multiset.mem_coe.mp (Multiset.mem_of_le hle (Multiset.mem_coe.mpr hdelivered))
  obtain ⟨e, he, haccepted⟩ := htaken
  have hread := (accepted_sublist (hp.extractors e he).reachable).subset haccepted
  exact ⟨e, he, payload, hread, haccepted, hdecode⟩

theorem frameRun_read : ∃ p : Pipeline UInt8, ∃ e ∈ p.extractors,
    ∃ payload ∈ payloadsRead e.world, payload ∈ accepted e.world ∧
      ∃ bars, frameSettings.decodeFrame payload = .ok bars ∧ 7 ∈ bars := by
  obtain ⟨p, hrun, _, hbars, _⟩ := frameRun_facts
  have hreach := Transition.System.Reachable.of_run (.init emptyPipeline_initial) hrun
  have hmem : (7 : UInt8) ∈ p.loader.table.bars := by
    rw [hbars]
    exact List.mem_cons_self
  exact ⟨p, stored_bars_were_read hreach hmem⟩

end Arrival

end Lakehouse.Contract

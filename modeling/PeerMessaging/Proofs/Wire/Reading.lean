import PeerMessaging.Proofs.Wire.Accounting
import PeerMessaging.Proofs.Wire.Lockstep

/-!
# What a stream has brought and what a reader has handed out

Whatever is asked of a reader (`FrameReader.Call`), in whatever order and whatever its stream does,
the items that it has handed out or passed over and those that its decoder still holds are together
what the bytes that the stream has brought are decoded to (`FrameReader.handed_append_drain`). A
call receives bytes, takes items off what it then has and holds the rest (`FrameReader.Goes`); how
`readFrame` goes, which may make several reads, is said by `FrameReader.Waits`.
-/

namespace PeerMessaging

section
variable {config : FrameConfig}

/-! ## Taking items -/

namespace Takes

variable {buffer rest last : Bytes} {items items' : List Item}

/-- Items are taken off a buffer whatever is behind them. -/
theorem append (h : Takes config buffer items rest) (more : Bytes) :
    Takes config (buffer ++ more) items (rest ++ more) := by
  induction h with
  | done => exact .done
  | item hd _ ih => exact .item (decode_append_of_item hd more) ih

/-- Taking items and then more is taking them all. -/
theorem trans (h : Takes config buffer items rest) (h' : Takes config rest items' last) :
    Takes config buffer (items ++ items') last := by
  induction h with
  | done => exact h'
  | item hd _ ih => exact .item hd (ih h')

end Takes

namespace FrameReader

/-! ## Receiving and taking -/

/-- The reader has received bytes behind those that it held, has taken items off all of them, and
holds the rest. -/
structure Goes (config : FrameConfig) (r : FrameReader) (held got : Bytes) (items : List Item)
    (r' : FrameReader) (held' : Bytes) : Prop where
  carried_eq : carried r.input.outcomes = got ++ carried r'.input.outcomes
  takes : Takes config (held ++ got) items held'
  holds : r'.decoder.Holds config held'

section
variable {r r' r'' : FrameReader} {held held' held'' got got' : Bytes} {items items' : List Item}
  {d : Decoder}

namespace Goes

theorem refl (h : r.decoder.Holds config held) : Goes config r held [] [] r held := by
  refine ⟨rfl, ?_, h⟩
  rw [List.append_nil]
  exact .done

theorem trans (h : Goes config r held got items r' held')
    (h' : Goes config r' held' got' items' r'' held'') :
    Goes config r held (got ++ got') (items ++ items') r'' held'' where
  carried_eq := by rw [h.carried_eq, h'.carried_eq, List.append_assoc]
  takes := by
    rw [← List.append_assoc]
    exact (h.takes.append got').trans h'.takes
  holds := h'.holds

/-- An item that is buffered is taken. -/
theorem of_item {item : Item} (h : r.decoder.Holds config held)
    (hn : r.decoder.next = (.ok (some item), d)) :
    ∃ held', Goes config r held [] [item] ⟨d, r.input⟩ held' := by
  obtain ⟨held', hd, hh⟩ := h.of_item hn
  refine ⟨held', rfl, ?_, hh⟩
  rw [List.append_nil]
  exact .item hd .done

/-- Where no item is buffered, none is taken. -/
theorem of_none (h : r.decoder.Holds config held) (hn : r.decoder.next = (.ok none, d)) :
    Goes config r held [] [] ⟨d, r.input⟩ held where
  carried_eq := rfl
  takes := by
    rw [List.append_nil]
    exact .done
  holds := h.of_none hn

/-- An error takes nothing. -/
theorem of_error {e : FrameError} (h : r.decoder.Holds config held)
    (hn : r.decoder.next = (.error e, d)) : Goes config r held [] [] ⟨d, r.input⟩ held := by
  obtain ⟨rfl, -⟩ := Decoder.next_push_of_error hn
  exact refl h

/-- A fill takes nothing, and holds what its reads bring. -/
theorem of_fill (h : r.decoder.Holds config held) (hg : r.fill.2.decoder = r.decoder.push got)
    (hc : carried r.input.outcomes = got ++ carried r.fill.2.input.outcomes) :
    Goes config r held got [] r.fill.2 (held ++ got) where
  carried_eq := hc
  takes := .done
  holds := by
    rw [hg]
    exact h.push got

/-- A reader that has no item buffered, and fills, holds what the reads bring. -/
theorem of_none_fill (h : r.decoder.Holds config held) (hn : r.decoder.next = (.ok none, d)) :
    ∃ got, Goes config r held got [] (fill ⟨d, r.input⟩).2 (held ++ got) ∧
      (fill ⟨d, r.input⟩).2.decoder = d.push got := by
  obtain ⟨got, hc, hd, -⟩ := fill_eq_push ⟨d, r.input⟩
  exact ⟨got, (of_none h hn).trans (.of_fill (h.of_none hn) hd hc), hd⟩

end Goes

/-- A fill that does not say that bytes have come changes nothing in what has been received: no byte
is added, and none that the stream has is lost. -/
theorem fill_of_ne (h : r.fill.1 ≠ .ok true) :
    r.fill.2.decoder = r.decoder ∧
      carried r.fill.2.input.outcomes = carried r.input.outcomes := by
  obtain ⟨got, hc, hd, hg⟩ := fill_eq_push r
  obtain rfl := hg.resolve_left h
  rw [Decoder.push_nil] at hd
  exact ⟨hd, hc.symm⟩

/-! ## Waiting for a frame -/

/-- How a reader waits for a frame: it passes over the keepalives that are buffered, hands out a
frame or an error that is buffered, and reads only when nothing is. -/
inductive Waits : FrameReader → Except FrameError Frame → FrameReader → Prop
  | frame {r : FrameReader} {f : Frame} {d : Decoder}
      (h : r.decoder.next = (.ok (some (.frame f)), d)) : Waits r (.ok f) ⟨d, r.input⟩
  | refuse {r : FrameReader} {e : FrameError} {d : Decoder} (h : r.decoder.next = (.error e, d)) :
      Waits r (.error e) ⟨d, r.input⟩
  | skip {r r' : FrameReader} {d : Decoder} {answer : Except FrameError Frame}
      (h : r.decoder.next = (.ok (some .keepalive), d)) (hw : Waits ⟨d, r.input⟩ answer r') :
      Waits r answer r'
  | read {r r₁ r' : FrameReader} {d : Decoder} {answer : Except FrameError Frame}
      (h : r.decoder.next = (.ok none, d)) (hf : fill ⟨d, r.input⟩ = (.ok true, r₁))
      (hw : Waits r₁ answer r') : Waits r answer r'
  | timeOut {r r' : FrameReader} {d : Decoder} (h : r.decoder.next = (.ok none, d))
      (hf : fill ⟨d, r.input⟩ = (.ok false, r')) : Waits r (.error (.io (.plain .timedOut))) r'
  | fail {r r' : FrameReader} {d : Decoder} {e : FrameError} (h : r.decoder.next = (.ok none, d))
      (hf : fill ⟨d, r.input⟩ = (.error e, r')) : Waits r (.error e) r'

/-- What a frame that is buffered, or an error, is found to be, the reader hands out. -/
theorem Waits.of_buffered {input : InputStream} {d d' : Decoder} :
    (∀ f, bufferedFrame d = (.ok (some f), d') → Waits ⟨d, input⟩ (.ok f) ⟨d', input⟩) ∧
      ∀ e, bufferedFrame d = (.error e, d') → Waits ⟨d, input⟩ (.error e) ⟨d', input⟩ := by
  fun_induction bufferedFrame d with
  | case1 d e d'' hn =>
    refine ⟨nofun, fun e' h => ?_⟩
    cases h
    exact .refuse hn
  | case2 d d'' hn => exact ⟨nofun, nofun⟩
  | case3 d f d'' hn =>
    refine ⟨fun f' h => ?_, nofun⟩
    cases h
    exact .frame hn
  | case4 d d'' hn ih => exact ⟨fun f h => .skip hn (ih.1 f h), fun e h => .skip hn (ih.2 e h)⟩

/-- A reader that has only keepalives buffered passes over them. -/
theorem Waits.of_none {input : InputStream} {d d' : Decoder} {answer : Except FrameError Frame}
    (h : bufferedFrame d = (.ok none, d'))
    (hw : ∀ d₀ : Decoder, d₀.next = (.ok none, d') → Waits ⟨d₀, input⟩ answer r') :
    Waits ⟨d, input⟩ answer r' := by
  fun_induction bufferedFrame d with
  | case1 | case3 => cases h
  | case2 d d'' hn =>
    cases h
    exact hw d hn
  | case4 d d'' hn ih => exact .skip hn (ih h)

/-- A reader waits for a frame in this way. -/
theorem waits_readFrame (r : FrameReader) : r.Waits r.readFrame.1 r.readFrame.2 := by
  fun_induction readFrame r with
  | case1 r e d h => exact Waits.of_buffered.2 e h
  | case2 r f d h => exact Waits.of_buffered.1 f h
  | case3 r d h r' hf ih => exact .of_none h fun d₀ hn => .read hn hf ih
  | case4 r d h r' hf => exact .of_none h fun d₀ hn => .timeOut hn hf
  | case5 r d h e r' hf => exact .of_none h fun d₀ hn => .fail hn hf

end

/-! ## Calls -/

/-- What may be asked of a reader. -/
inductive Call
  | poll
  | readFrame
  | buffered
  | fill
  deriving DecidableEq, Repr

/-- What a call is answered: an item, if it hands one out. -/
abbrev Answer := Except FrameError (Option Item)

/-- The item that a call hands out. -/
def handedOut : Answer → List Item
  | .ok item => item.toList
  | .error _ => []

/-- What comes of a call. -/
def perform (r : FrameReader) : Call → Answer × FrameReader
  | .poll => r.poll
  | .readFrame => (r.readFrame.1.map fun f => some (.frame f), r.readFrame.2)
  | .buffered => r.buffered
  | .fill => (r.fill.1.map fun _ => none, r.fill.2)

/-- The reader after calls, one after another. -/
def performAll (r : FrameReader) : List Call → FrameReader
  | [] => r
  | call :: calls => performAll (r.perform call).2 calls

/-- The items that calls hand out, one after another. -/
def handed (r : FrameReader) : List Call → List Item
  | [] => []
  | call :: calls => handedOut (r.perform call).1 ++ handed (r.perform call).2 calls

/-- What comes of a call: the reader receives bytes, passes over keepalives, though only if it waits
for a frame, and hands out the next item or none. If it hands out none, the call can be made again:
it then comes to the same as if the bytes had been there the first time. -/
structure Performed (config : FrameConfig) (r : FrameReader) (held : Bytes) (call : Call)
    (got : Bytes) (skipped : Nat) (held' : Bytes) : Prop where
  goes : Goes config r held got
    (List.replicate skipped .keepalive ++ handedOut (r.perform call).1) (r.perform call).2 held'
  skipped_eq : call ≠ .readFrame → skipped = 0
  again : handedOut (r.perform call).1 = [] → ∀ input : InputStream,
    perform ⟨(r.perform call).2.decoder, input⟩ call = perform ⟨r.decoder.push got, input⟩ call

section
variable {r : FrameReader} {held : Bytes}

/-! ## Calls that are made again -/

/-- A decoder that has handed out nothing answers the same again. -/
theorem next_again {d : Decoder} (h : handedOut d.next.1 = []) : d.next.2.next = d.next := by
  obtain ⟨answer, d', hn⟩ : ∃ answer d', d.next = (answer, d') := ⟨_, _, rfl⟩
  rw [hn] at h ⊢
  rcases answer with e | _ | item
  · obtain ⟨rfl, -⟩ := Decoder.next_push_of_error hn
    exact hn
  · exact Decoder.next_of_none hn
  · cases h

/-- Decoders that answer the next call alike find the same frame. -/
theorem bufferedFrame_congr {d d' : Decoder} (h : d.next = d'.next) :
    bufferedFrame d = bufferedFrame d' := by
  rw [bufferedFrame, bufferedFrame]
  split <;> rename_i hn <;> rw [h] at hn <;> split <;> rename_i hn' <;> cases hn.symm.trans hn' <;>
    rfl

/-- A frame is looked for behind a keepalive. -/
theorem bufferedFrame_of_keepalive {d d' : Decoder} (h : d.next = (.ok (some .keepalive), d')) :
    bufferedFrame d = bufferedFrame d' := by
  rw [bufferedFrame]
  split <;> rename_i hn <;> cases h.symm.trans hn
  rfl

/-- What a reader waits for depends on the frame that is found in its decoder. -/
theorem readFrame_congr {d d' : Decoder} (h : bufferedFrame d = bufferedFrame d')
    (input : InputStream) : readFrame ⟨d, input⟩ = readFrame ⟨d', input⟩ := by
  rw [readFrame, readFrame]
  simp only [h]

/-- What a reader polls depends on what its decoder answers. -/
theorem poll_congr {d d' : Decoder} (h : d.next = d'.next) (input : InputStream) :
    poll ⟨d, input⟩ = poll ⟨d', input⟩ := by
  simp only [poll, buffered, h]

/-- Handing out what is buffered receives nothing. -/
theorem performed_buffered (h : r.decoder.Holds config held) :
    ∃ held', r.Performed config held .buffered [] 0 held' := by
  suffices hg : ∃ held', Goes config r held [] (handedOut r.decoder.next.1)
      ⟨r.decoder.next.2, r.input⟩ held' by
    obtain ⟨held', hg⟩ := hg
    refine ⟨held', hg, fun _ => rfl, fun ho input => ?_⟩
    have hn : r.decoder.next.2.next = r.decoder.next := next_again ho
    simp only [perform, buffered, Decoder.push_nil, hn]
  obtain ⟨answer, d, hn⟩ : ∃ answer d, r.decoder.next = (answer, d) := ⟨_, _, rfl⟩
  rw [hn]
  rcases answer with e | _ | item
  · exact ⟨held, .of_error h hn⟩
  · exact ⟨held, .of_none h hn⟩
  · exact Goes.of_item h hn

/-- A fill hands out nothing. -/
theorem performed_fill (h : r.decoder.Holds config held) :
    ∃ got, r.Performed config held .fill got 0 (held ++ got) := by
  obtain ⟨got, hc, hd, -⟩ := fill_eq_push r
  have ho : handedOut (r.perform .fill).1 = [] := by
    rw [perform]
    cases r.fill.1 <;> rfl
  refine ⟨got, ?_, fun _ => rfl, fun _ input => ?_⟩
  · rw [ho]
    exact .of_fill h hd hc
  · rw [← hd]
    rfl

/-- A poll that finds an item or an error does not read. -/
theorem poll_of_ne (h : r.decoder.next.1 ≠ .ok none) : r.poll = r.buffered := by
  rw [poll]
  split
  · rename_i r' hb
    exact absurd (congrArg Prod.fst hb) h
  · rfl

/-- A poll that finds nothing fills, and hands out what is buffered then. -/
theorem poll_of_none {d : Decoder} (h : r.decoder.next = (.ok none, d)) :
    (fill ⟨d, r.input⟩).1 = .ok true ∧ r.poll = (fill ⟨d, r.input⟩).2.buffered ∨
      (fill ⟨d, r.input⟩).1 ≠ .ok true ∧
        r.poll = ((fill ⟨d, r.input⟩).1.map fun _ => none, (fill ⟨d, r.input⟩).2) := by
  simp only [poll, buffered, h]
  rcases fill ⟨d, r.input⟩ with ⟨e | _ | _, r'⟩
  · exact .inr ⟨nofun, rfl⟩
  · exact .inr ⟨nofun, rfl⟩
  · exact .inl ⟨rfl, rfl⟩

/-- A poll hands out what is buffered, before a fill or after one. -/
theorem performed_poll (h : r.decoder.Holds config held) :
    ∃ got held', r.Performed config held .poll got 0 held' := by
  by_cases ha : r.decoder.next.1 = .ok none
  case neg =>
    have hp : r.perform .poll = r.perform .buffered := poll_of_ne ha
    obtain ⟨held', hg, -, -⟩ := performed_buffered h
    refine ⟨[], held', ?_, fun _ => rfl, fun ho input => ?_⟩ <;> rw [hp] at *
    · exact hg
    · rw [Decoder.push_nil]
      exact poll_congr (next_again ho) input
  case pos =>
    obtain ⟨d, hn⟩ : ∃ d, r.decoder.next = (.ok none, d) := ⟨_, Prod.ext ha rfl⟩
    obtain ⟨got, hg, hd⟩ := Goes.of_none_fill h hn
    have hpush : (fill ⟨d, r.input⟩).2.decoder.next = (r.decoder.push got).next := by
      rw [hd, Decoder.next_push_of_none hn]
    rcases poll_of_none hn with ⟨-, hp⟩ | ⟨hf, hp⟩ <;> replace hp : r.perform .poll = _ := hp
    · -- What is handed out after the fill is handed out of what the fill has brought.
      obtain ⟨held', hb, -, -⟩ := performed_buffered hg.holds
      refine ⟨got, held', ?_, fun _ => rfl, fun ho input => ?_⟩ <;> rw [hp] at *
      · have hboth := hg.trans hb
        rwa [List.append_nil] at hboth
      · exact poll_congr ((next_again ho).trans hpush) input
    · have ho : handedOut ((fill ⟨d, r.input⟩).1.map fun _ => none) = [] := by
        cases (fill ⟨d, r.input⟩).1 <;> rfl
      refine ⟨got, held ++ got, ?_, fun _ => rfl, fun _ input => ?_⟩ <;> rw [hp]
      · rw [ho]
        exact hg
      · exact poll_congr hpush input

/-- Waiting for a frame passes over keepalives and receives bytes until there is a frame, and can
be done again if it ends with an error. -/
theorem goes_of_waits {r' : FrameReader} {answer : Except FrameError Frame}
    (hw : r.Waits answer r') (h : r.decoder.Holds config held) :
    ∃ got skipped held', Goes config r held got
        (List.replicate skipped .keepalive ++ handedOut (answer.map fun f => some (.frame f))) r'
        held' ∧
      ∀ e, answer = .error e → bufferedFrame r'.decoder = bufferedFrame (r.decoder.push got) := by
  -- A reader whose fill fails holds what the reads have brought.
  have fails {r r' : FrameReader} {held : Bytes} {d : Decoder} {result : Except FrameError Bool}
      (h : r.decoder.Holds config held) (hn : r.decoder.next = (.ok none, d))
      (hf : fill ⟨d, r.input⟩ = (result, r')) :
      ∃ got held', Goes config r held got [] r' held' ∧
        bufferedFrame r'.decoder = bufferedFrame (r.decoder.push got) := by
    obtain ⟨got, hg, hd⟩ := Goes.of_none_fill h hn
    rw [hf] at hg hd
    refine ⟨got, _, hg, ?_⟩
    rw [hd, bufferedFrame_congr (Decoder.next_push_of_none hn got)]
  induction hw generalizing held with
  | frame hn =>
    obtain ⟨held', hg⟩ := Goes.of_item h hn
    exact ⟨[], 0, held', hg, nofun⟩
  | refuse hn =>
    refine ⟨[], 0, held, .of_error h hn, fun _ _ => ?_⟩
    obtain ⟨rfl, -⟩ := Decoder.next_push_of_error hn
    rw [Decoder.push_nil]
  | skip hn _ ih =>
    obtain ⟨rest, hg⟩ := Goes.of_item h hn
    obtain ⟨got, skipped, held', hg', ha⟩ := ih hg.holds
    refine ⟨got, skipped + 1, held', hg.trans hg', fun e he => ?_⟩
    rw [ha e he, bufferedFrame_of_keepalive (Decoder.next_push_of_item hn got)]
  | read hn hf _ ih =>
    obtain ⟨got, hg, hd⟩ := Goes.of_none_fill h hn
    rw [hf] at hg hd
    obtain ⟨more, skipped, held', hg', ha⟩ := ih hg.holds
    refine ⟨got ++ more, skipped, held', hg.trans hg', fun e he => ?_⟩
    rw [ha e he, hd, Decoder.push_push,
      bufferedFrame_congr (Decoder.next_push_of_none hn (got ++ more))]
  | timeOut hn hf =>
    obtain ⟨got, held', hg, ha⟩ := fails h hn hf
    exact ⟨got, 0, held', hg, fun _ _ => ha⟩
  | fail hn hf =>
    obtain ⟨got, held', hg, ha⟩ := fails h hn hf
    exact ⟨got, 0, held', hg, fun _ _ => ha⟩

/-- Waiting for a frame hands it out, and passes over the keepalives before it. -/
theorem performed_readFrame (h : r.decoder.Holds config held) :
    ∃ got skipped held', r.Performed config held .readFrame got skipped held' := by
  obtain ⟨got, skipped, held', hg, ha⟩ := goes_of_waits r.waits_readFrame h
  refine ⟨got, skipped, held', hg, fun hc => absurd rfl hc, fun ho input => ?_⟩
  obtain ⟨e, he⟩ : ∃ e, r.readFrame.1 = .error e := by
    simp only [perform] at ho
    cases hr : r.readFrame.1 with
    | error e => exact ⟨e, rfl⟩
    | ok f =>
      rw [hr] at ho
      cases ho
  simp only [perform]
  rw [readFrame_congr (ha e he)]

/-- Every call comes to this. -/
theorem performed (h : r.decoder.Holds config held) (call : Call) :
    ∃ got skipped held', r.Performed config held call got skipped held' := by
  cases call with
  | poll =>
    obtain ⟨got, held', hp⟩ := performed_poll h
    exact ⟨got, 0, held', hp⟩
  | readFrame => exact performed_readFrame h
  | buffered =>
    obtain ⟨held', hp⟩ := performed_buffered h
    exact ⟨[], 0, held', hp⟩
  | fill =>
    obtain ⟨got, hp⟩ := performed_fill h
    exact ⟨got, 0, held ++ got, hp⟩

/-- Calls receive bytes and pass over keepalives, though only if one of them waits for a frame, and
hand out the other items. -/
theorem goes_performAll (h : r.decoder.Holds config held) (calls : List Call) :
    ∃ got passed held', Goes config r held got passed (r.performAll calls) held' ∧
      passed.filter (· ≠ .keepalive) = (r.handed calls).filter (· ≠ .keepalive) ∧
      (.readFrame ∉ calls → passed = r.handed calls) := by
  induction calls generalizing r held with
  | nil => exact ⟨[], [], held, .refl h, rfl, fun _ => rfl⟩
  | cons call calls ih =>
    obtain ⟨got, skipped, held₁, hg, hs, -⟩ := performed h call
    obtain ⟨more, passed, held', hg', hframes, hitems⟩ := ih hg.holds
    refine ⟨got ++ more, _, held', hg.trans hg', ?_, fun hc => ?_⟩
    · rw [handed, List.filter_append, List.filter_append, List.filter_append, hframes]
      simp
    · have hcall : call ≠ .readFrame := (List.ne_of_not_mem_cons hc).symm
      rw [hs hcall, hitems (List.not_mem_of_not_mem_cons hc)]
      rfl

end

/-- A reader neither loses nor duplicates a frame, whatever is asked of a new one, in whatever
order, and whatever its stream does. The frames that it has handed out, followed by those that its
decoder still hands out, are those of the bytes that the stream has delivered, up to the first error
in them; and so are the items, keepalives included, if `readFrame` has not been asked for. What is
held is what has been delivered and not been handed out, and the next call, whichever it is, goes on
from it: if it hands out nothing, it can be made again. Of any reader, a fill that brings nothing
leaves the decoder as it is and loses no byte; a poll reads only if no item is buffered; and so does
`readFrame`, each time that it reads. -/
theorem handed_append_drain (config : FrameConfig) (input : InputStream) (calls : List Call) :
    (∃ delivered passed held,
      Goes config (new config input) [] delivered passed ((new config input).performAll calls)
        held ∧
      ((new config input).handed calls ++
          ((new config input).performAll calls).decoder.drain.1).filter (· ≠ .keepalive) =
        (decodeAll config delivered).items.filter (· ≠ .keepalive) ∧
      (.readFrame ∉ calls →
        (new config input).handed calls ++
            ((new config input).performAll calls).decoder.drain.1 =
          (decodeAll config delivered).items) ∧
      ∀ call, ∃ got skipped held',
        ((new config input).performAll calls).Performed config held call got skipped held') ∧
    ∀ r : FrameReader,
      (r.fill.1 ≠ .ok true → r.fill.2.decoder = r.decoder ∧
        carried r.fill.2.input.outcomes = carried r.input.outcomes) ∧
      (r.decoder.next.1 ≠ .ok none → r.poll.2.input = r.input) ∧
      r.Waits r.readFrame.1 r.readFrame.2 := by
  refine ⟨?_, fun r => ⟨fill_of_ne, fun h => ?_, r.waits_readFrame⟩⟩
  · have h : (new config input).decoder.Holds config [] := .idle []
    obtain ⟨delivered, passed, held, hg, hframes, hitems⟩ := goes_performAll h calls
    have hall := hg.takes.decodeAll_eq
    obtain ⟨hdrain, -, -⟩ := hg.holds.drain
    refine ⟨delivered, passed, held, hg, ?_, fun hc => ?_, performed hg.holds⟩
    · rw [List.nil_append] at hall
      rw [hall, hdrain, List.filter_append, List.filter_append, hframes]
    · rw [List.nil_append] at hall
      rw [hall, hdrain, hitems hc]
  · rw [poll_of_ne h]
    rfl

end FrameReader

end

end PeerMessaging

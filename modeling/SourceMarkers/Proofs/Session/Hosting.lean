import SourceMarkers.Proofs.Files.Kept
import SourceMarkers.Proofs.Session.Run

/-!
# Hosting a session

A session that is served and then ended leaves two things: what it put out, and
the file of its store. Both are determined by the requests of the input.

When nothing goes wrong, the output is the replies to the requests, and the file
holds the catalog after the last of them. How the requests stand in the input is
of no importance: padding may be put at the ends of lines or taken away there.

Two things can go wrong. The client may stop reading at any octet; then the
session is over after the request whose reply was cut, and the file holds the
catalog after that request, whatever was still to be read. Or the input may
fail; then the file is left alone. When both could happen, it is the client that
was first, as nothing is read after a reply that was cut.

## Main definitions

* `Session.host`: What a session puts out, and the files that it leaves behind.

## Theorems

* `Session.host_replies`: A session with a client that reads everything and an
  input that ends.
* `Session.exists_cut`: The request of the first reply that is cut.
* `Session.serveLines_of_cut`: Serving is over after the reply that was cut.
* `Session.host_faults`: A session whose client may stop reading, and whose
  input may fail.
-/

namespace SourceMarkers

namespace Session

/-- What a session puts out when it serves an input, and the files that it
    leaves behind when it has ended. -/
def host (s : Session) (store : Store) (room : Option Nat) (input : List UInt8)
    (ending : InputEnd) (t : FileTree) : List UInt8 × FileTree :=
  let service := s.serve room input ending
  (service.output, (service.session.shutdown store (service.endedWell ending) t).2)

/-- Hosting is answering the requests of the input, and then keeping the catalog
    unless the input failed before the client did. -/
theorem host_eq (s : Session) (store : Store) (room : Option Nat) (input : List UInt8)
    (ending : InputEnd) (t : FileTree) :
    s.host store room input ending t =
      let service := s.serveLines room (requestLines input ending)
      (service.output, if !service.delivered || ending == .ended then
        (store.save service.session.document t).2 else t) := by
  rcases atInputEnd_fields (s.serveLines room (requestLines input ending)) ending with
    ⟨hsession, houtput, hdelivered⟩
  unfold host Service.endedWell
  simp only [serve_eq_serveLines, hsession, houtput, hdelivered, shutdown_eq]
  split <;> rfl

/-- A session that ended well leaves its last catalog in the file. -/
theorem read_host (s last : Session) (store : Store) (room : Option Nat) (input : List UInt8)
    (ending : InputEnd) (t : FileTree) (hstore : store.Writable t)
    (hlast : (s.serveLines room (requestLines input ending)).session = last)
    (hwell : (s.serveLines room (requestLines input ending)).delivered = false ∨
      ending = .ended) :
    (s.host store room input ending t).2.read store.path =
      .ok (Store.textOf last.document) := by
  have hkept : (!(s.serveLines room (requestLines input ending)).delivered ||
      ending == .ended) = true := by
    rw [Bool.or_eq_true, Bool.not_eq_true', beq_iff_eq]
    exact hwell
  rw [host_eq]
  simp only [if_pos hkept, hlast]
  exact store.read_save _ t hstore

/-- A session whose input failed leaves the files as they were, unless the client
    stopped reading before. -/
theorem host_of_failed (s : Session) (store : Store) (room : Option Nat) (input : List UInt8)
    (reason : String) (t : FileTree)
    (h : (s.serveLines room (requestLines input (.failed reason))).delivered = true) :
    (s.host store room input (.failed reason) t).2 = t := by
  rw [host_eq]
  simp only [h]
  rfl

/-- A client that reads everything gets the replies to the requests, in order,
    and nothing else: for each request the response to it in the state that the
    ones before left, and the events that it made. When the input has ended, the
    file holds the catalog after the last request. Padding at the ends of lines,
    line ends among it, makes no difference to either. -/
theorem host_replies (s : Session) (store : Store) (t : FileTree) (input : List UInt8)
    (hstore : store.Writable t) :
    let requests := requestLines input .ended
    let hosted := s.host store none input .ended t
    hosted.1 = (s.replies requests).flatMap Reply.chunk ∧
      hosted.2.read store.path = .ok (Store.textOf (s.after requests).document) ∧
      ∀ front padding back, input = front ++ back → (∀ b ∈ padding, isPadding b = true) →
        (front = [] ∨ front.getLast? = some newline) ∨ (back = [] ∨ back.head? = some newline) →
        s.host store none (front ++ padding ++ back) .ended t = hosted := by
  intro requests hosted
  rcases serveLines_of_room s none none requests rfl with ⟨hsession, houtput, _⟩
  have hhosted : hosted = _ := host_eq s store none input .ended t
  refine ⟨?_, ?_, fun front padding back hinput hpadding hedge => ?_⟩
  · rw [hhosted]
    exact houtput
  · exact read_host s _ store none input .ended t hstore hsession (Or.inr rfl)
  · -- The input with padding holds the same requests.
    rw [hhosted, host_eq, requestLines_padding front padding back hpadding hedge, hinput]

/-- Two requests, the second without a line end behind it. A blank line and a
    return may stand in between, before the line end of the first. -/
theorem host_replies_blank_line :
    let s := new (.mk (some (.ofString "/home/u")))
    let store := Store.inDirectory (.ofString "/scratch")
    let front := Utf8.ofString "[1, \"markers_tab_closed\"]"
    let padding : List UInt8 := [0x0D, newline, 0x20, 0x0D]
    let back := newline :: Utf8.ofString "[2, \"get_markers_state\"]"
    let hosted := s.host store none (front ++ back) .ended .empty
    store.Writable .empty ∧ (∀ b ∈ padding, isPadding b = true) ∧
      (back = [] ∨ back.head? = some newline) ∧
      hosted.1 = (s.replies (requestLines (front ++ back) .ended)).flatMap Reply.chunk ∧
      s.host store none (front ++ padding ++ back) .ended .empty = hosted := by
  intro s store front padding back hosted
  have hstore : store.Writable .empty := store.writable_of_save .null .empty rfl
  have hpadding : ∀ b ∈ padding, isPadding b = true := by
    simp only [padding, List.forall_mem_cons]
    exact ⟨rfl, rfl, rfl, rfl, List.forall_mem_nil _⟩
  have hback : back = [] ∨ back.head? = some newline := Or.inr rfl
  rcases host_replies s store .empty (front ++ back) hstore with ⟨houtput, _, hsame⟩
  exact ⟨hstore, hpadding, hback, houtput, hsame front padding back rfl hpadding (Or.inr hback)⟩

/-! ## Faults -/

/-- The reply to each request ends in a line end. -/
theorem length_chunk_pos (r : Reply) : 0 < r.chunk.length := by
  rw [Reply.chunk, Reply.chars, Utf8.encode_append, Utf8.encode_append, List.length_append,
    List.length_append]
  have hend : (Utf8.encode ['\n']).length = 1 := rfl
  omega

theorem flatten_take_chunks (s : Session) (lines : List (List UInt8)) (k : Nat) :
    (((s.replies lines).map Reply.chunk).take k).flatten = s.chunks (lines.take k) := by
  unfold chunks
  induction lines generalizing s k with
  | nil => rw [List.take_nil, replies, List.map_nil, List.take_nil, List.flatten_nil,
      List.flatMap_nil]
  | cons line rest ih =>
    cases k with
    | zero => rfl
    | succ k =>
      rw [replies, List.map_cons, List.take_succ_cons, List.take_succ_cons, List.flatten_cons,
        replies, List.flatMap_cons, ih]

/-- The first reply that does not fit any more is the reply to a request, and
    what was put out before it fits. -/
theorem exists_cut (s : Session) (room k : Nat) (lines : List (List UInt8))
    (hcut : room < (s.chunks (lines.take k)).length)
    (hfits : ∀ j, j < k → (s.chunks (lines.take j)).length ≤ room) :
    ∃ front line back, lines = front ++ line :: back ∧ lines.take k = front ++ [line] ∧
      (s.chunks front).length ≤ room := by
  cases k with
  | zero => exact absurd hcut (Nat.not_lt_zero _)
  | succ j =>
    have hfront := hfits j (Nat.lt_succ_self j)
    cases hline : lines[j]? with
    | none =>
      -- There is no such request, so nothing more was put out.
      rw [List.take_add_one, hline, Option.toList_none, List.append_nil] at hcut
      exact absurd hfront (Nat.not_le_of_lt hcut)
    | some line =>
      have htake : lines.take (j + 1) = lines.take j ++ [line] := by
        rw [List.take_add_one, hline, Option.toList_some]
      refine ⟨lines.take j, line, lines.drop (j + 1), ?_, htake, hfront⟩
      rw [← List.singleton_append, ← List.append_assoc, ← htake, List.take_append_drop]

/-- Serving is over after the first request whose reply does not fit any more;
    the request was carried out. -/
theorem serveLines_of_cut (s : Session) (room : Nat) (front : List (List UInt8))
    (line : List UInt8) (back : List (List UInt8)) (hfits : (s.chunks front).length ≤ room)
    (hcut : room < (s.chunks (front ++ [line])).length) :
    (s.serveLines (some room) (front ++ line :: back)).session = s.after (front ++ [line]) ∧
      (s.serveLines (some room) (front ++ line :: back)).delivered = false := by
  have hroom : (put (some room) (s.chunks front)).room? =
      some (some (room - (s.chunks front).length)) := by rw [put_of_le room _ hfits]
  -- What is left of the room is too small for the reply.
  have hsmall : room - (s.chunks front).length < ((s.after front).answerOctets line).chunk.length := by
    have hlast : (s.after front).chunks [line] = ((s.after front).answerOctets line).chunk :=
      List.append_nil _
    rw [chunks_append, List.length_append, hlast] at hcut
    omega
  rw [serveLines_append s (some room) _ front (line :: back) hroom, serveLines,
    put_of_lt _ _ hsmall, after_append]
  exact ⟨rfl, rfl⟩

/-- Whatever goes wrong, the client got the start of what it would have got, and
    the file holds a catalog that the session had, or is left alone. The first
    request whose reply was cut is the last one that was carried out, and its
    effect is kept. When no reply was cut, all requests were carried out; their
    effect is kept when the input ended, and nothing is written when it
    failed. -/
theorem host_faults (s : Session) (store : Store) (t : FileTree) (room : Nat)
    (input : List UInt8) (ending : InputEnd) (hstore : store.Writable t) :
    let requests := requestLines input ending
    let chunks := (s.replies requests).map Reply.chunk
    let hosted := s.host store (some room) input ending t
    hosted.1 = chunks.flatten.take room ∧
      (∀ k, room < (chunks.take k).flatten.length →
        (∀ j, j < k → (chunks.take j).flatten.length ≤ room) →
        hosted.2.read store.path = .ok (Store.textOf (s.after (requests.take k)).document)) ∧
      (chunks.flatten.length ≤ room →
        match ending with
        | .ended => hosted.2.read store.path = .ok (Store.textOf (s.after requests).document)
        | .failed _ => hosted.2 = t) := by
  intro requests chunks hosted
  have hhosted : hosted = _ := host_eq s store (some room) input ending t
  have hchunks : ∀ k, (chunks.take k).flatten = s.chunks (requests.take k) :=
    flatten_take_chunks s requests
  have hall : chunks.flatten = s.chunks requests := rfl
  refine ⟨?_, fun k hcut hfits => ?_, fun hfits => ?_⟩
  · rw [hhosted, hall]
    exact (serveLines_output s (some room) requests).trans (taken_put room _)
  · -- The request of the reply that was cut is the last of the first `k`.
    simp only [hchunks] at hcut hfits
    rcases exists_cut s room k requests hcut hfits with ⟨front, line, back, hsplit, htake, hfront⟩
    rw [htake] at hcut ⊢
    rcases serveLines_of_cut s room front line back hfront hcut with ⟨hsession, hdelivered⟩
    rw [← hsplit] at hsession hdelivered
    exact read_host s _ store (some room) input ending t hstore hsession (Or.inl hdelivered)
  · -- Everything was delivered, and what is kept depends on the input.
    rw [hall] at hfits
    have hroom : (put (some room) (s.chunks requests)).room? =
        some (some (room - (s.chunks requests).length)) := by rw [put_of_le room _ hfits]
    rcases serveLines_of_room s (some room) _ requests hroom with ⟨hsession, _, hdelivered⟩
    cases ending with
    | ended => exact read_host s _ store (some room) input .ended t hstore hsession (Or.inr rfl)
    | failed reason => exact host_of_failed s store (some room) input reason t hdelivered

/-- The client stops reading just behind the first of two replies, and then the
    input fails inside a third line. Both requests have their effect on the
    file. -/
theorem host_faults_second_reply :
    let s := new (.mk (some (.ofString "/home/u")))
    let store := Store.inDirectory (.ofString "/scratch")
    let first := Utf8.ofString "[1, \"show_markers\", [[\"lint\", \"~/p\", []]]]"
    let second := Utf8.ofString "[2, \"markers_tab_closed\"]"
    let input := first ++ newline :: second ++ newline :: Utf8.ofString "[3"
    let ending := InputEnd.failed "input failed"
    let room := (s.chunks [first]).length
    let hosted := s.host store (some room) input ending .empty
    store.Writable .empty ∧ requestLines input ending = [first, second] ∧
      hosted.1 = (s.chunks [first, second]).take room ∧
      hosted.2.read store.path = .ok (Store.textOf (s.after [first, second]).document) := by
  intro s store first second input ending room hosted
  have hstore : store.Writable .empty := store.writable_of_save .null .empty rfl
  have hrequests : requestLines input ending = [first, second] := by decide
  have hchunks := flatten_take_chunks s (requestLines input ending)
  rcases host_faults s store .empty room input ending hstore with ⟨houtput, hcut, _⟩
  rw [hrequests] at hchunks houtput hcut
  refine ⟨hstore, hrequests, houtput, hcut 2 ?_ fun j hj => ?_⟩
  · -- Some of the second reply does not fit.
    have hsecond : s.chunks [first, second] =
        s.chunks [first] ++ (s.after [first]).chunks [second] := s.chunks_append [first] [second]
    have hpos : 0 < ((s.after [first]).chunks [second]).length := by
      rw [chunks_cons, List.length_append]
      exact Nat.add_pos_left (length_chunk_pos _) _
    rw [hchunks, List.take_succ_cons, List.take_succ_cons, List.take_zero, hsecond,
      List.length_append]
    exact Nat.lt_add_of_pos_right hpos
  · -- The first reply fits exactly.
    rw [hchunks]
    have hsmall : j = 0 ∨ j = 1 := by omega
    rcases hsmall with rfl | rfl
    · exact Nat.zero_le _
    · exact Nat.le_refl _

end Session

end SourceMarkers

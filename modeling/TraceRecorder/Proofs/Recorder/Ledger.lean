/-
# The ledger of published entries

What becomes of the entries that writers publish is written down in a `Ledger`: which were
published, which bytes the sinks accepted, which entries were discarded, and which a drain
detached but did not send.

An operation settles a ledger (`Recorder.Settles`) if its recorder and those who hold buffers have
just the entries that they should have by it.  That is transitive, the ledgers being added up, and
every trade settles a ledger in which entries are published and nothing else happens to any.
-/
import TraceRecorder.Proofs.Recorder.Custody

namespace TraceRecorder

/-- **What became of published entries.** -/
structure Ledger where
  published : Published := {}
  /-- The bytes that sinks accepted, one after the other. -/
  accepted : Bytes := []
  discarded : List Bytes := []
  /-- Detached by a drain but not sent, since the sink refused that call or an earlier one of the
  drain. -/
  unsent : List Bytes := []
  /-- The bytes of new sinks from before they were the recorder's. -/
  brought : Bytes := []

namespace Ledger

instance : Append Ledger :=
  ⟨fun l m => ⟨l.published ++ m.published, l.accepted ++ m.accepted, l.discarded ++ m.discarded,
    l.unsent ++ m.unsent, l.brought ++ m.brought⟩⟩

@[simp] theorem published_append (l m : Ledger) :
    (l ++ m).published = l.published ++ m.published := rfl

@[simp] theorem accepted_append (l m : Ledger) : (l ++ m).accepted = l.accepted ++ m.accepted := rfl

@[simp] theorem discarded_append (l m : Ledger) :
    (l ++ m).discarded = l.discarded ++ m.discarded := rfl

@[simp] theorem unsent_append (l m : Ledger) : (l ++ m).unsent = l.unsent ++ m.unsent := rfl

@[simp] theorem brought_append (l m : Ledger) : (l ++ m).brought = l.brought ++ m.brought := rfl

theorem published_then_sent (p : Published) (accepted : Bytes) (unsent : List Bytes) :
    ({ published := p } ++ { accepted := accepted, unsent := unsent } : Ledger) =
      { published := p, accepted := accepted, unsent := unsent } := by
  show Ledger.mk (p ++ {}) _ _ _ _ = _
  rw [Published.append_nothing]
  rfl

end Ledger

namespace Recorder

def chunk (r : Recorder) : Bytes := r.sink.toList.flatMap Sink.content

theorem chunk_eq_of_surroundings_eq {r r' : Recorder} (h : r'.surroundings = r.surroundings) :
    r'.chunk = r.chunk := (congrArg chunk h :)

/-- **The recorder and those who hold buffers have the entries that they should have** by a
ledger. -/
structure Settles (r : Recorder) (out : List Buffer) (r' : Recorder) (out' : List Buffer)
    (l : Ledger) : Prop where
  entries : ∀ x, (r'.entries out').count x + (Entry.split l.accepted).count x +
    l.discarded.count x + l.unsent.count x = (r.entries out).count x + l.published.entries.count x
  row : Entry.IsRow l.accepted
  chunk : r'.chunk = r.chunk ++ l.accepted
  cut : r'.stats.flushes = r.stats.flushes + l.published.cut.length
  last : r'.stats.checkpointsWritten = r.stats.checkpointsWritten + l.published.last.length

namespace Settles

variable {r r' r'' : Recorder} {out out' out'' : List Buffer} {l m : Ledger}

theorem nothing (hp : ∀ x, (r'.entries out').count x = (r.entries out).count x)
    (hsink : r'.chunk = r.chunk) (hc : r'.stats.flushes = r.stats.flushes)
    (hl : r'.stats.checkpointsWritten = r.stats.checkpointsWritten) :
    Settles r out r' out' {} where
  entries x := by
    rw [hp, Entry.split_nil]
    rfl
  row := Entry.isRow_nil
  chunk := by rw [hsink, List.append_nil]
  cut := hc
  last := hl

/-- **One operation after the other.** -/
theorem trans (h : Settles r out r' out' l) (h' : Settles r' out' r'' out'' m) :
    Settles r out r'' out'' (l ++ m) where
  entries x := by
    have hx := h.entries x
    have hx' := h'.entries x
    simp only [Ledger.accepted_append, Ledger.discarded_append, Ledger.unsent_append,
      Ledger.published_append, h.row.split_append, Published.count_entries_append,
      List.count_append] at hx hx' ⊢
    omega
  row := h.row.append h'.row
  chunk := by
    rw [h'.chunk, h.chunk, List.append_assoc]
    rfl
  cut := by
    rw [h'.cut, h.cut, Ledger.published_append, Published.cut_append, List.length_append,
      Nat.add_assoc]
  last := by
    rw [h'.last, h.last, Ledger.published_append, Published.last_append, List.length_append,
      Nat.add_assoc]

theorem alike (h : Settles r out r' out' l) (hp : r''.pooled = r'.pooled)
    (hsink : r''.sink = r'.sink) (hc : r''.stats.flushes = r'.stats.flushes)
    (hl : r''.stats.checkpointsWritten = r'.stats.checkpointsWritten) :
    Settles r out r'' out' l where
  entries x := by
    have hsame : r''.entries out' = r'.entries out' := by rw [Recorder.entries, hp]; rfl
    rw [hsame, h.entries]
  row := h.row
  chunk := by
    rw [← h.chunk, Recorder.chunk, hsink]
    rfl
  cut := hc.trans h.cut
  last := hl.trans h.last

/-- **First entries are published, then some of them are sent.** -/
theorem thenSent {p : Published} {accepted : Bytes} {unsent : List Bytes}
    (h : Settles r out r' out' { published := p })
    (h' : Settles r' out' r'' out'' { accepted := accepted, unsent := unsent }) :
    Settles r out r'' out'' { published := p, accepted := accepted, unsent := unsent } := by
  rw [← Ledger.published_then_sent]
  exact h.trans h'

end Settles

/-- **A trade settles what it publishes.** -/
theorem Trades.settles {r r' : Recorder} {out out' : List Buffer} {e : Epoch} {p : Published}
    (h : Trades r out r' out' e p) : Settles r out r' out' { published := p } where
  entries x := by
    rw [h.entries, Entry.split_nil]
    rfl
  row := Entry.isRow_nil
  chunk := by
    rw [chunk_eq_of_surroundings_eq h.surroundings, List.append_nil]
  cut := h.cut
  last := h.last

end Recorder

end TraceRecorder

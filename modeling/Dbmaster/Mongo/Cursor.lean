import Dbmaster.Mongo.Bson
import Dbmaster.Lib.Text
import Mathlib.Logic.Function.Iterate
/-!
# Cursors

The documents of a cursor as a stream: those of the first batch, then those that the
server sends for one `getMore` after the other.
-/

namespace Dbmaster.Mongo.Cursor

open Dbmaster.Lib.Text

variable {Error : Type}

/-! ## The stream -/

/-- The first batch, the id of the cursor and its namespace. -/
def cursorFirstBatch (resp : Document) : Option (List Document × Int64 × String) := do
  let cursor ← Document.getDocument resp "cursor"
  let batch := (← Document.getArray cursor "firstBatch").filterMap Bson.asDocument
  let id := (Document.getI64 cursor "id").getD 0
  let ns := (Document.getStr cursor "ns").getD ""
  return (batch, id, ns)

def nsToColl (ns : String) : String :=
  match splitOnce '.' ns.toList with
  | some (_, coll) => String.ofList coll
  | none => ""

structure CursorState where
  id : Int64
  coll : String
  buf : List Document

/-- The cursor of the answer to a `getMore`. -/
def replyCursor (resp : Document) : Document := (Document.getDocument resp "cursor").getD []

def nextId (resp : Document) : Int64 := (Document.getI64 (replyCursor resp) "id").getD 0

def nextBatch (resp : Document) : List Document :=
  ((Document.getArray (replyCursor resp) "nextBatch").getD []).filterMap Bson.asDocument

inductive Phase
  | running (st : CursorState)
  /-- the answer to a `getMore` is still to come -/
  | awaiting
  | ended

/-- The stream, the answers that the server is going to give, and the commands it got. -/
structure Stream (Error : Type) where
  phase : Phase
  replies : List (Except Error Document)
  sent : List (Int64 × String)

inductive Poll (Error : Type)
  | item (item : Except Error Document)
  | finished
  | pending

/-- The closure of `unfold`. -/
def turn (st : CursorState) (sent : List (Int64 × String))
    (replies : List (Except Error Document)) : Poll Error × Stream Error :=
  match st.buf with
  | doc :: buf => (.item (.ok doc), ⟨.running { st with buf := buf }, replies, sent⟩)
  | [] =>
      if st.id = 0 ∨ st.coll.isEmpty then (.finished, ⟨.ended, replies, sent⟩)
      else
        match replies with
        | [] => (.pending, ⟨.awaiting, [], sent ++ [(st.id, st.coll)]⟩)
        | .error e :: replies =>
            (.item (.error e),
              ⟨.running { st with id := 0 }, replies, sent ++ [(st.id, st.coll)]⟩)
        | .ok resp :: replies =>
            turn { st with id := nextId resp, buf := nextBatch resp }
              (sent ++ [(st.id, st.coll)]) replies

def Stream.poll (s : Stream Error) : Poll Error × Stream Error :=
  match s.phase with
  | .running st => turn st s.sent s.replies
  | .awaiting => (.pending, s)
  | .ended => (.finished, s)

/-- The stream after so many polls. -/
def Stream.after (s : Stream Error) (n : Nat) : Stream Error := (fun s => s.poll.2)^[n] s

def cursorStream (firstBatch : List Document) (cursorId : Int64) (ns : String)
    (replies : List (Except Error Document)) : Stream Error :=
  ⟨.running ⟨cursorId, nsToColl ns, firstBatch⟩, replies, []⟩

/-! ## What a cursor delivers -/

/-- The batches after the first, up to a zero id or to an error. -/
def batches (id : Int64) : List (Except Error Document) → List (List Document)
  | .ok resp :: replies => if id = 0 then [] else nextBatch resp :: batches (nextId resp) replies
  | _ => []

/-- The error that the stream runs into. -/
def failure (id : Int64) : List (Except Error Document) → Option Error
  | [] => none
  | .error e :: _ => if id = 0 then none else some e
  | .ok resp :: replies => if id = 0 then none else failure (nextId resp) replies

/-- The answers lead to a zero id or to an error. -/
def settled (id : Int64) : List (Except Error Document) → Bool
  | [] => id = 0
  | .error _ :: _ => true
  | .ok resp :: replies => id = 0 || settled (nextId resp) replies

/-- The ids of the cursor that the answers tell, up to an error. -/
def ids : List (Except Error Document) → List Int64
  | .ok resp :: replies => nextId resp :: ids replies
  | _ => []

/-- One `getMore` for each id until there is none. -/
def requests (id : Int64) (coll : String) (replies : List (Except Error Document)) :
    List (Int64 × String) :=
  ((id :: ids replies).takeWhile (· != 0)).map fun i => (i, coll)

def delivered (buf : List Document) (id : Int64) (replies : List (Except Error Document)) :
    List (Except Error Document) :=
  (buf :: batches id replies).flatten.map .ok ++ (failure id replies).toList.map .error

def lastPoll (id : Int64) (replies : List (Except Error Document)) : Poll Error :=
  if settled id replies then .finished else .pending

/-- The name of a database has no dot, and that of a collection is not empty. -/
structure Namespace where
  db : String
  coll : String
  dotless : '.' ∉ db.toList
  coll_ne : coll ≠ ""

def Namespace.text (ns : Namespace) : String := ns.db ++ "." ++ ns.coll

theorem nsToColl_text (ns : Namespace) : nsToColl ns.text = ns.coll := by
  have htext : ns.text.toList = ns.db.toList ++ '.' :: ns.coll.toList := by
    simp [Namespace.text]
  rw [nsToColl, htext, splitOnce_append ns.dotless]
  exact String.ofList_toList

/-- What the stream has still to give, how its polls go on after that, and all the commands
that it will have sent. -/
def Stream.Yields (s : Stream Error) (items : List (Except Error Document)) (last : Poll Error)
    (commands : List (Int64 × String)) : Prop :=
  match s.phase with
  | .running st => st.coll ≠ "" ∧ items = delivered st.buf st.id s.replies ∧
      last = lastPoll st.id s.replies ∧ commands = s.sent ++ requests st.id st.coll s.replies
  | .awaiting => items = [] ∧ last = .pending ∧ commands = s.sent
  | .ended => items = [] ∧ last = .finished ∧ commands = s.sent

theorem delivered_cons (doc : Document) (buf : List Document) (id : Int64)
    (replies : List (Except Error Document)) :
    delivered (doc :: buf) id replies = .ok doc :: delivered buf id replies := rfl

theorem delivered_zero (replies : List (Except Error Document)) : delivered [] 0 replies = [] := by
  rcases replies with _ | ⟨_ | resp, replies⟩ <;> rfl

theorem settled_zero (replies : List (Except Error Document)) : settled 0 replies = true := by
  rcases replies with _ | ⟨_ | resp, replies⟩ <;> rfl

theorem requests_zero (coll : String) (replies : List (Except Error Document)) :
    requests 0 coll replies = [] := rfl

theorem requests_of_ne {id : Int64} (h : id ≠ 0) (coll : String)
    (replies : List (Except Error Document)) :
    requests id coll replies =
      (id, coll) :: ((ids replies).takeWhile (· != 0)).map fun i => (i, coll) := by
  rw [requests, List.takeWhile_cons_of_pos (by simpa using h), List.map_cons]

/-- The answer to a `getMore` goes on as the cursor does. -/
theorem delivered_reply {id : Int64} (h : id ≠ 0) (resp : Document)
    (replies : List (Except Error Document)) :
    delivered [] id (.ok resp :: replies) = delivered (nextBatch resp) (nextId resp) replies := by
  simp [delivered, batches, failure, h]

theorem turn_yields (st : CursorState) (sent : List (Int64 × String))
    (replies : List (Except Error Document)) (hcoll : st.coll ≠ "") :
    (turn st sent replies).1 =
        (delivered st.buf st.id replies).head?.elim (lastPoll st.id replies) Poll.item ∧
      (turn st sent replies).2.Yields (delivered st.buf st.id replies).tail
        (lastPoll st.id replies) (sent ++ requests st.id st.coll replies) := by
  fun_induction turn st sent replies with
  | case1 replies st sent doc buf hbuf =>
      rw [hbuf, delivered_cons]
      exact ⟨rfl, hcoll, rfl, rfl, rfl⟩
  | case2 replies st sent hbuf hend =>
      have hid : st.id = 0 := by
        rcases hend with hid | hempty
        · exact hid
        · exact absurd (String.isEmpty_iff.mp hempty) hcoll
      rw [hbuf, hid, delivered_zero, lastPoll, settled_zero, requests_zero, List.append_nil]
      exact ⟨rfl, rfl, rfl, rfl⟩
  | case3 st sent hbuf hend =>
      have hid : st.id ≠ 0 := fun hid => hend (.inl hid)
      have hlast : lastPoll st.id ([] : List (Except Error Document)) = .pending := by
        simp [lastPoll, settled, hid]
      rw [hbuf, hlast, requests_of_ne hid]
      exact ⟨rfl, rfl, rfl, rfl⟩
  | case4 st sent hbuf hend e replies =>
      have hid : st.id ≠ 0 := fun hid => hend (.inl hid)
      have hitems : delivered [] st.id (.error e :: replies) = [.error e] := by
        simp [delivered, batches, failure, hid]
      rw [hbuf, hitems, requests_of_ne hid]
      refine ⟨rfl, hcoll, ?_, ?_, ?_⟩
      · exact (delivered_zero replies).symm
      · rw [lastPoll, lastPoll, settled_zero]
        rfl
      · rw [requests_zero, List.append_nil]
        rfl
  | case5 st sent hbuf hend resp replies ih =>
      have hid : st.id ≠ 0 := fun hid => hend (.inl hid)
      have hlast : lastPoll st.id (.ok resp :: replies) = lastPoll (nextId resp) replies := by
        simp [lastPoll, settled, hid]
      have hrequests : sent ++ requests st.id st.coll (.ok resp :: replies) =
          sent ++ [(st.id, st.coll)] ++ requests (nextId resp) st.coll replies := by
        rw [requests_of_ne hid, List.append_assoc]
        rfl
      rw [hbuf, delivered_reply hid, hlast, hrequests]
      exact ih hcoll

theorem poll_yields {s : Stream Error} {items : List (Except Error Document)} {last : Poll Error}
    {commands : List (Int64 × String)} (h : s.Yields items last commands) :
    s.poll.1 = items.head?.elim last Poll.item ∧ s.poll.2.Yields items.tail last commands := by
  unfold Stream.poll
  unfold Stream.Yields at h
  split
  case h_1 st hphase =>
    rw [hphase] at h
    obtain ⟨hcoll, rfl, rfl, rfl⟩ := h
    exact turn_yields st s.sent s.replies hcoll
  case h_2 hphase =>
    rw [hphase] at h
    obtain ⟨rfl, rfl, rfl⟩ := h
    refine ⟨rfl, ?_⟩
    rw [Stream.Yields, hphase]
    exact ⟨rfl, rfl, rfl⟩
  case h_3 hphase =>
    rw [hphase] at h
    obtain ⟨rfl, rfl, rfl⟩ := h
    refine ⟨rfl, ?_⟩
    rw [Stream.Yields, hphase]
    exact ⟨rfl, rfl, rfl⟩

theorem after_yields {s : Stream Error} {items : List (Except Error Document)} {last : Poll Error}
    {commands : List (Int64 × String)} (h : s.Yields items last commands) (n : Nat) :
    (s.after n).Yields (items.drop n) last commands := by
  induction n with
  | zero => exact h
  | succ n ih =>
      have hstep : s.after (n + 1) = (s.after n).poll.2 := Function.iterate_succ_apply' _ n s
      rw [hstep, ← List.tail_drop]
      exact (poll_yields ih).2

theorem sent_of_yields {s : Stream Error} {items : List (Except Error Document)}
    {last : Poll Error} {commands : List (Int64 × String)} (h : s.Yields items last commands) :
    s.sent <+: commands := by
  unfold Stream.Yields at h
  split at h
  · rw [h.2.2.2]
    exact List.prefix_append _ _
  · exact h.2.2 ▸ List.prefix_refl _
  · exact h.2.2 ▸ List.prefix_refl _

/-- The polls give the documents of all batches in their order, then the error if there is
one, and then only the end of the stream; no `getMore` follows a zero id. -/
theorem cursorStream_delivers (firstBatch : List Document) (cursorId : Int64) (ns : Namespace)
    (replies : List (Except Error Document)) (n : Nat) :
    ((cursorStream firstBatch cursorId ns.text replies).after n).poll.1 =
        (((firstBatch :: batches cursorId replies).flatten.map Except.ok ++
            (failure cursorId replies).toList.map Except.error)[n]?).elim
          (if settled cursorId replies then .finished else .pending) Poll.item ∧
      ((cursorStream firstBatch cursorId ns.text replies).after n).sent <+:
        ((cursorId :: ids replies).takeWhile (· != 0)).map fun id => (id, ns.coll) := by
  have hstart : (cursorStream firstBatch cursorId ns.text replies).Yields
      (delivered firstBatch cursorId replies) (lastPoll cursorId replies)
      (requests cursorId ns.coll replies) := by
    unfold cursorStream
    rw [nsToColl_text]
    exact ⟨ns.coll_ne, rfl, rfl, rfl⟩
  have hafter := after_yields hstart n
  refine ⟨?_, sent_of_yields hafter⟩
  rw [(poll_yields hafter).1, List.head?_drop]
  rfl

/-- A collection may have a dot in its name. -/
def archived : Namespace := ⟨"shop", "orders.2024", by decide, by decide⟩

def order (id : Int32) : Document := [("_id", .int32 id)]

def lastReply : Document :=
  [("cursor", .document [("id", .int64 0), ("nextBatch", .array [.document (order 2)])])]

theorem cursorStream_delivers_archived :
    let s : Stream Unit := cursorStream [order 1] 7 archived.text [.ok lastReply]
    (s.after 0).poll.1 = .item (.ok (order 1)) ∧ (s.after 1).poll.1 = .item (.ok (order 2)) ∧
      (s.after 2).poll.1 = .finished ∧ (s.after 2).sent <+: [(7, "orders.2024")] := by
  have hpolls := @cursorStream_delivers Unit [order 1] 7 archived [.ok lastReply]
  exact ⟨(hpolls 0).1, (hpolls 1).1, (hpolls 2).1, (hpolls 2).2⟩

end Dbmaster.Mongo.Cursor

import Mathlib.Data.Stream.Init

/-! # Hashing a stream piece by piece

A stream cut into pieces of one size, and digest objects that are fed piece by
piece. Where the digest is that of all pieces in one, an object that was fed the
first pieces of a stream has digested the front of that stream.
-/

namespace NetForge.Calculus

/-! ## Streams in pieces -/

section

variable {α : Type*}

theorem take_add_stream (m n : ℕ) (s : Stream' α) :
    s.take (m + n) = s.take m ++ (s.drop m).take n := by
  induction m generalizing s with
  | zero => simp
  | succ m ih =>
      have hstep := ih s.tail
      rw [Stream'.tail_eq_drop, Stream'.drop_drop, Nat.add_comm 1 m] at hstep
      rw [Nat.succ_add, Stream'.take_succ, Stream'.take_succ, List.cons_append,
        Stream'.tail_eq_drop, hstep]

def pieces (s : Stream' α) (size count : ℕ) : List (List α) :=
  (List.range count).map fun k => (s.drop (size * k)).take size

theorem pieces_succ (s : Stream' α) (size count : ℕ) :
    pieces s size (count + 1) = pieces s size count ++ [(s.drop (size * count)).take size] := by
  rw [pieces, List.range_succ, List.map_append]
  rfl

theorem length_of_mem_pieces {s : Stream' α} {size count : ℕ} {piece : List α}
    (h : piece ∈ pieces s size count) : piece.length = size := by
  obtain ⟨k, -, rfl⟩ := List.mem_map.mp h
  exact Stream'.length_take size _

/-- The pieces put together again are the front of the stream. -/
theorem flatten_pieces (s : Stream' α) (size count : ℕ) :
    (pieces s size count).flatten = s.take (size * count) := by
  induction count with
  | zero => rfl
  | succ count ih =>
      rw [pieces_succ, List.flatten_append, ih, List.flatten_singleton, Nat.mul_succ,
        take_add_stream]

end

/-! ## Digest objects -/

/-- What a hash object can do: take in more, and give its digest. -/
structure Hasher (σ β δ : Type*) where
  update : σ → List β → σ
  digest : σ → δ

namespace Hasher

variable {σ β δ : Type*} {o : Hasher σ β δ} {start : σ} {hash : List β → δ}

/-- Feeding piece by piece from `start` on is hashing the concatenation. -/
def Computes (o : Hasher σ β δ) (start : σ) (hash : List β → δ) : Prop :=
  ∀ fed : List (List β), o.digest (fed.foldl o.update start) = hash fed.flatten

theorem Computes.digest_update (h : o.Computes start hash) (message : List β) :
    o.digest (o.update start message) = hash message := by
  have hone := h [message]
  rwa [List.flatten_singleton] at hone

/-- An object fed with the pieces of a stream has digested the front of the stream. -/
theorem Computes.digest_pieces (h : o.Computes start hash) (s : Stream' β) (size count : ℕ) :
    o.digest ((pieces s size count).foldl o.update start) = hash (s.take (size * count)) := by
  rw [h, flatten_pieces]

end Hasher

end NetForge.Calculus

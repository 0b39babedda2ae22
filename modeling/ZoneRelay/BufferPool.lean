import ZoneRelay.Bytes

/-!
# A pool of buffers

Buffers of one size are handed out, written to, and given back. An idle buffer keeps
whatever its last holder wrote; **it is zeroed when it is handed out again**, so that no
holder sees the bytes of another (`ZoneRelay.BufferPool.acquire_fst`). The pool keeps at
most 1024 idle buffers, and none without bytes: a buffer whose contents were taken away
does not come back.
-/

namespace ZoneRelay

/-- The size of the buffers, and the idle ones with their old contents. -/
structure BufferPool where
  size : Nat
  idle : List Bytes

namespace BufferPool

/-- The largest number of idle buffers. -/
def maxIdle : Nat := 1024

/-- A pool with `count` idle buffers of `size` bytes, at most as many as are kept. -/
def make (count size : Nat) : BufferPool :=
  ⟨size, List.replicate (min count maxIdle) (Bytes.zeros size)⟩

/-- A pool of 64 buffers for the largest datagrams. -/
def standard : BufferPool := make 64 4096

/-- An idle buffer made ready for its next holder: its contents are dropped, then it is
filled up with zeros to the size of the pool's buffers. -/
def cleared (pool : BufferPool) (old : Bytes) : Bytes :=
  let kept := old.take 0
  kept ++ Bytes.zeros (pool.size - kept.length)

/-- Hands out a buffer, an idle one if there is one. -/
def acquire (pool : BufferPool) : Bytes × BufferPool :=
  match pool.idle with
  | old :: idle => (pool.cleared old, { pool with idle })
  | [] => (Bytes.zeros pool.size, pool)

/-- Takes a buffer back. -/
def release (pool : BufferPool) (buffer : Bytes) : BufferPool :=
  if buffer.isEmpty || maxIdle ≤ pool.idle.length then pool
  else { pool with idle := buffer :: pool.idle }

/-- The number of idle buffers. -/
def available (pool : BufferPool) : Nat := pool.idle.length

/-- A buffer that is handed out is all zeros. -/
@[simp] theorem acquire_fst (pool : BufferPool) : pool.acquire.1 = Bytes.zeros pool.size := by
  unfold acquire
  split <;> simp [cleared]

/-- What is left behind is the pool without its first idle buffer. -/
theorem acquire_snd (pool : BufferPool) :
    pool.acquire.2 = { pool with idle := pool.idle.tail } := by
  obtain ⟨size, _ | ⟨old, idle⟩⟩ := pool <;> rfl

@[simp] theorem size_acquire (pool : BufferPool) : pool.acquire.2.size = pool.size := by
  rw [acquire_snd]

/-- A buffer without bytes is not taken back. -/
@[simp] theorem release_nil (pool : BufferPool) : pool.release [] = pool := rfl

/-- Any other is, if there is room for it. -/
theorem release_of_ne_nil (pool : BufferPool) {buffer : Bytes} (h : buffer ≠ []) :
    pool.release buffer =
      if pool.available < maxIdle then { pool with idle := buffer :: pool.idle } else pool := by
  have hempty : buffer.isEmpty = false := List.isEmpty_eq_false_iff.mpr h
  rw [release, hempty, Bool.false_or, available]
  by_cases hroom : pool.idle.length < maxIdle
  · rw [if_pos hroom, if_neg (by simpa using hroom)]
  · rw [if_neg hroom, if_pos (by simpa using hroom)]

@[simp] theorem size_release (pool : BufferPool) (buffer : Bytes) :
    (pool.release buffer).size = pool.size := by
  rw [release]
  split <;> rfl

end BufferPool

end ZoneRelay

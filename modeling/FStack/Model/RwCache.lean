import FStack.Model.ZeroCopy

/-!
# The read and write cache of a connection

A `TRWCache` (`adapter/micro_thread/mt_cache.cpp`) is a queue of bytes in a list of buffers.  The first
buffer is partly consumed and the last one partly filled; buffers that become empty go to the free list
of a pool, from which new ones are taken before memory is asked for.

A buffer is known by a number.  Of its memory only the data region is kept, and where this begins; a
caller has buffers of its own, which it can fill and put into the cache.  What `malloc` answers and what
the socket takes or gives are inputs of a call.
-/

set_option autoImplicit false

namespace FStack.Model

/-- `TSkBuffer`: `offset` is `data - head`, and `data` the `data_len` bytes from there on.
SOURCE: mt_cache.h:39-49 -/
structure TSkBuffer where
  id : ℕ
  size : ℕ
  offset : ℕ
  data : List UInt8
deriving DecidableEq, Repr

namespace TSkBuffer

/-- `end - data - data_len`, or 0 if the data region is beyond the end. -/
def remain (b : TSkBuffer) : ℕ := b.size - (b.offset + b.data.length)

/-- Bytes behind the data region become part of it. -/
def push (b : TSkBuffer) (bytes : List UInt8) : TSkBuffer := { b with data := b.data ++ bytes }

/-- The first bytes are consumed. -/
def skip (b : TSkBuffer) (n : ℕ) : TSkBuffer :=
  { b with offset := b.offset + n, data := b.data.drop n }

/-- SOURCE: mt_cache.cpp:144-145 -/
def reset (b : TSkBuffer) : TSkBuffer := { b with offset := 0, data := [] }

end TSkBuffer

/-- `TSkBuffMng`, with the number of buffers that `malloc` has given so far.
SOURCE: mt_cache.h:58-64 -/
structure TSkBuffMng where
  free_list : List TSkBuffer
  size : ℕ
  count : ℕ
  made : ℕ
deriving DecidableEq, Repr

namespace TSkBuffMng

/-- SOURCE: mt_cache.cpp:39-59 -/
def newSkBuffer (mng : TSkBuffMng) (size : ℕ) : List Bool → Option TSkBuffer × TSkBuffMng × List Bool
  | true :: mallocs =>
    (some { id := mng.made, size := size, offset := 0, data := [] },
      { mng with made := mng.made + 1 }, mallocs)
  | mallocs => (none, mng, mallocs.tail)

/-- SOURCE: mt_cache.cpp:111-132 -/
def allocSkBuffer (mng : TSkBuffMng) (mallocs : List Bool) :
    Option TSkBuffer × TSkBuffMng × List Bool :=
  match mng.free_list with
  | item :: rest =>
    (some item,
      { mng with free_list := rest, count := if 0 < mng.count then mng.count - 1 else 2 ^ 32 - 1 },
      mallocs)
  | [] => mng.newSkBuffer mng.size mallocs

/-- SOURCE: mt_cache.cpp:134-146 -/
def freeSkBuffer (mng : TSkBuffMng) (buff : TSkBuffer) : TSkBuffMng :=
  { mng with free_list := mng.free_list ++ [buff.reset], count := (mng.count + 1) % 2 ^ 32 }

end TSkBuffMng

/-- SOURCE: mt_cache.h:76-82 -/
structure TRWCache where
  list : List TSkBuffer
  len : ℕ
  count : ℕ
deriving DecidableEq, Repr

namespace TRWCache

/-- SOURCE: mt_cache.cpp:165-171 -/
def rwCacheInit : TRWCache := ⟨[], 0, 0⟩

/-- The buffers of a cache go to the pool.
SOURCE: mt_cache.cpp:173-189 -/
def rwCacheDestroy (cache : TRWCache) (pool : TSkBuffMng) : TSkBuffMng :=
  cache.list.foldl TSkBuffMng.freeSkBuffer pool

/-- Replaces the last buffer. -/
def updateLast (cache : TRWCache) (f : TSkBuffer → TSkBuffer) : TRWCache :=
  match cache.list.getLast? with
  | none => cache
  | some last => { cache with list := cache.list.dropLast ++ [f last] }

/-- The free memory of the last buffer. -/
def lastRemain (cache : TRWCache) : ℕ := (cache.list.getLast?.map TSkBuffer.remain).getD 0

/-- SOURCE: mt_cache.cpp:248-258 -/
def cacheAppendBuffer (cache : TRWCache) (buff : TSkBuffer) : TRWCache where
  list := cache.list ++ [buff]
  len := (cache.len + buff.data.length) % 2 ^ 32
  count := (cache.count + 1) % 2 ^ 32

/-- SOURCE: mt_cache.cpp:260-280 -/
def cacheSkipFirstBuffer (cache : TRWCache) : TRWCache × Option TSkBuffer :=
  match cache.list with
  | [] => (cache, none)
  | buff :: rest =>
    ({ list := rest
       len := if buff.data.length ≤ cache.len then cache.len - buff.data.length else cache.len
       count := if 0 < cache.count then cache.count - 1 else cache.count }, some buff)

/-- The loop of `cache_copy_out`: the list and `count`, the pool, the bytes that are copied, and how many
are left to copy.
SOURCE: mt_cache.cpp:201-228 -/
def copyOutLoop : List TSkBuffer → ℕ → TSkBuffMng → ℕ → List TSkBuffer × ℕ × TSkBuffMng × List UInt8 × ℕ
  | [], count, pool, left => ([], count, pool, [], left)
  | buff :: rest, count, pool, left =>
    let skip_len := if left < buff.data.length then left else buff.data.length
    let item := buff.skip skip_len
    if 0 < item.data.length then (item :: rest, count, pool, buff.data.take skip_len, left - skip_len)
    else
      let count := if 0 < count then count - 1 else count
      let pool := pool.freeSkBuffer item
      if left - skip_len = 0 then (rest, count, pool, buff.data.take skip_len, left - skip_len)
      else
        let (list, count, pool, out, left) := copyOutLoop rest count pool (left - skip_len)
        (list, count, pool, buff.data.take skip_len ++ out, left)

/-- `cache_copy_out`: the cache, the pool, the bytes that are copied, and what is returned.
SOURCE: mt_cache.cpp:191-241 -/
def cacheCopyOut (cache : TRWCache) (pool : TSkBuffMng) (len : ℕ) :
    TRWCache × TSkBuffMng × List UInt8 × ℕ :=
  let (list, count, pool, out, left) := copyOutLoop cache.list cache.count pool len
  let skip_len := len - left
  ({ list := list, len := if skip_len < cache.len then cache.len - skip_len else 0, count := count },
    pool, out, skip_len)

/-- SOURCE: mt_cache.cpp:243-246 -/
def cacheSkipData (cache : TRWCache) (pool : TSkBuffMng) (len : ℕ) : TRWCache × TSkBuffMng :=
  let (cache, pool, _, _) := cache.cacheCopyOut pool len
  (cache, pool)

/-- The loop of `cache_append_data`: the bytes that do not fit into the last buffer are put into
buffers of a list of their own.  The pool has reset its buffers, so that their data region begins at
their head.  A turn takes a buffer from the free list or an answer of `malloc`, so `turns` can be one
more than there are of both.
SOURCE: mt_cache.cpp:317-338 -/
def keepLoop : ℕ → TSkBuffMng → List Bool → List UInt8 → TRWCache → Option TRWCache × TSkBuffMng
  | 0, pool, _, _, keep_list => (some keep_list, pool)
  | turns + 1, pool, mallocs, bytes, keep_list =>
    match pool.allocSkBuffer mallocs with
    | (none, pool, _) => (none, keep_list.rwCacheDestroy pool)
    | (some item, pool, mallocs) =>
      let keep_list := keep_list.cacheAppendBuffer item
      if bytes.length ≤ item.size then
        (some (keep_list.updateLast fun last => { last with data := bytes }), pool)
      else
        keepLoop turns pool mallocs (bytes.drop item.size)
          (keep_list.updateLast fun last => { last with data := bytes.take item.size })

/-- `cache_append_data`: the cache, the pool, and what is returned.
SOURCE: mt_cache.cpp:282-350 -/
def cacheAppendData (cache : TRWCache) (pool : TSkBuffMng) (mallocs : List Bool) (data : List UInt8) :
    TRWCache × TSkBuffMng × ℤ :=
  let len := data.length
  if len = 0 then (cache, pool, 0)
  else
    let remain := cache.lastRemain
    if len ≤ remain then
      let cache := cache.updateLast (·.push data)
      ({ cache with len := (cache.len + len) % 2 ^ 32 }, pool, int32 len)
    else
      match keepLoop (pool.free_list.length + mallocs.length + 1) pool mallocs (data.drop remain)
          rwCacheInit with
      | (none, pool) => (cache, pool, -2)
      | (some keep_list, pool) =>
        let cache := cache.updateLast (·.push (data.take remain))
        ({ list := cache.list ++ keep_list.list
           len := (cache.len + len) % 2 ^ 32
           count := (cache.count + keep_list.count) % 2 ^ 32 }, pool, int32 len)

/-- What a call of `recv` gives: bytes or an error, and whether `errno` is then `EAGAIN`. -/
structure RecvResult where
  bytes : Option (List UInt8)
  again : Bool
deriving DecidableEq, Repr

def SK_ERR_NEED_CLOSE : ℤ := 10000

/-- The first half of a turn of `cache_tcp_recv`: if there is no room in the last buffer, another one is
put behind it.
SOURCE: mt_cache.cpp:404-414 -/
def recvBuffer (cache : TRWCache) (pool : TSkBuffMng) (mallocs : List Bool) :
    Option TRWCache × TSkBuffMng × List Bool :=
  if cache.lastRemain = 0 then
    match pool.allocSkBuffer mallocs with
    | (none, pool, mallocs) => (none, pool, mallocs)
    | (some item, pool, mallocs) => (some (cache.cacheAppendBuffer item), pool, mallocs)
  else (some cache, pool, mallocs)

/-- The loop of `cache_tcp_recv`: the cache, the pool, what is returned, and the bytes that came from the
socket.  It never gives more than the buffer can take.
SOURCE: mt_cache.cpp:402-447 -/
def recvLoop : ℕ → List RecvResult → TRWCache → TSkBuffMng → List Bool → ℤ →
    TRWCache × TSkBuffMng × ℤ × List UInt8
  | 0, _, cache, pool, _, total => (cache, pool, total, [])
  | turns + 1, results, cache, pool, mallocs, total =>
    match cache.recvBuffer pool mallocs with
    | (none, pool, _) => (cache, pool, -2, [])
    | (some cache, pool, mallocs) =>
      match results.head? with
      | none | some ⟨none, true⟩ => (cache, pool, total, [])
      | some ⟨none, false⟩ => (cache, pool, -2, [])
      | some ⟨some bytes, again⟩ =>
        let got := bytes.take cache.lastRemain
        let recvd_len := int32 got.length
        if recvd_len = 0 then (cache, pool, -SK_ERR_NEED_CLOSE, got)
        else if recvd_len < 0 then (cache, pool, if again then total else -2, got)
        else
          let filled := cache.updateLast (·.push got)
          let filled := { filled with len := (filled.len + got.length) % 2 ^ 32 }
          let total := int32 (total + recvd_len)
          if recvd_len < int32 cache.lastRemain then (filled, pool, total, got)
          else
            let (cache, pool, ret, more) := recvLoop turns results.tail filled pool mallocs total
            (cache, pool, ret, got ++ more)

/-- SOURCE: mt_cache.cpp:394-450 -/
def cacheTcpRecv (cache : TRWCache) (pool : TSkBuffMng) (mallocs : List Bool)
    (results : List RecvResult) : TRWCache × TSkBuffMng × ℤ × List UInt8 :=
  recvLoop 100 results cache pool mallocs 0

/-- What a call of `send` does: how many bytes it takes, or an error, and whether `errno` is then
`EAGAIN`. -/
structure SendResult where
  sent : Option ℕ
  again : Bool
deriving DecidableEq, Repr

/-- The loop of `cache_tcp_send`: the bytes that the socket takes, `total`, and whether the last `ret` is
negative and `errno` then not `EAGAIN`.
SOURCE: mt_cache.cpp:467-482 -/
def sendLoop : List TSkBuffer → List SendResult → ℤ → List UInt8 × ℤ × Bool
  | [], _, total => ([], total, false)
  | item :: rest, results, total =>
    match results.head? with
    | none => ([], total, false)
    | some ⟨none, again⟩ => ([], total, !again)
    | some ⟨some sent, again⟩ =>
      let bytes := item.data.take sent
      let ret := int32 bytes.length
      if ret < 0 then (bytes, total, !again)
      else
        let total := int32 (total + ret)
        if ret < int32 item.data.length then (bytes, total, false)
        else
          let (more, total, failed) := sendLoop rest results.tail total
          (bytes ++ more, total, failed)

/-- `cache_tcp_send`: the cache, the pool, what is returned, and the bytes that the socket took.
SOURCE: mt_cache.cpp:452-494 -/
def cacheTcpSend (cache : TRWCache) (pool : TSkBuffMng) (results : List SendResult) :
    TRWCache × TSkBuffMng × ℤ × List UInt8 :=
  if cache.len = 0 then (cache, pool, 0, [])
  else
    let (bytes, total, failed) := sendLoop cache.list results 0
    let (cache, pool) := cache.cacheSkipData pool (total % 2 ^ 32).toNat
    (cache, pool, if failed then -2 else total, bytes)

/-- The loop of `read_cache_begin`.
SOURCE: mt_cache.cpp:655-683 -/
def readBeginLoop : List TSkBuffer → ℕ → ℕ → List UInt8
  | [], _, _ => []
  | item :: rest, pos_left, copy_left =>
    let skip_len := if item.data.length < pos_left then item.data.length else pos_left
    let start := item.data.drop skip_len
    if start.length = 0 then readBeginLoop rest (pos_left - skip_len) copy_left
    else
      let copy_len := if start.length < copy_left then start.length else copy_left
      start.take copy_len ++
        if copy_left - copy_len = 0 then []
        else readBeginLoop rest (pos_left - skip_len) (copy_left - copy_len)

/-- `read_cache_begin`: the bytes that are copied, whose number is returned.
SOURCE: mt_cache.cpp:640-686 -/
def readCacheBegin (cache : TRWCache) (start len : ℕ) : List UInt8 :=
  if cache.len ≤ start then [] else readBeginLoop cache.list start len

end TRWCache

/-- A cache, its pool, and the buffers that the caller has. -/
structure CacheState where
  cache : TRWCache
  pool : TSkBuffMng
  hands : List TSkBuffer
deriving DecidableEq, Repr

/-- The calls, and what the caller does with its buffers: it gets them from `new_sk_buffer` and
`alloc_sk_buffer`, writes into them, and gives them to the pool. -/
inductive CacheOp where
  | appendData (mallocs : List Bool) (data : List UInt8)
  | appendBuffer (id : ℕ)
  | copyOut (len : ℕ)
  | skipData (len : ℕ)
  | skipFirstBuffer
  | tcpRecv (mallocs : List Bool) (results : List TRWCache.RecvResult)
  | tcpSend (results : List TRWCache.SendResult)
  | newBuffer (size : ℕ) (mallocs : List Bool)
  | allocBuffer (mallocs : List Bool)
  | writeBuffer (id : ℕ) (offset : ℕ) (data : List UInt8)
  | freeBuffer (id : ℕ)
deriving DecidableEq, Repr

/-- What a call returns, the bytes that go out of the cache to the caller or to the socket, and those that
the socket gives. -/
structure CacheAnswer where
  ret : ℤ := 0
  out : List UInt8 := []
  received : List UInt8 := []
deriving DecidableEq, Repr

namespace CacheState

def init (size : ℕ) : CacheState := ⟨TRWCache.rwCacheInit, ⟨[], size, 0, 0⟩, []⟩

/-- The bytes in the data regions. -/
def content (s : CacheState) : List UInt8 := s.cache.list.flatMap TSkBuffer.data

/-- A call.  The caller can only use a buffer that it has, and only write within its memory. -/
def call (s : CacheState) : CacheOp → CacheState × CacheAnswer
  | .appendData mallocs data =>
    let (cache, pool, ret) := s.cache.cacheAppendData s.pool mallocs data
    ({ s with cache := cache, pool := pool }, { ret := ret })
  | .appendBuffer id =>
    match s.hands.find? (·.id == id) with
    | none => (s, {})
    | some buff =>
      ({ s with cache := s.cache.cacheAppendBuffer buff, hands := s.hands.erase buff }, {})
  | .copyOut len =>
    let (cache, pool, out, ret) := s.cache.cacheCopyOut s.pool len
    ({ s with cache := cache, pool := pool }, { ret := ret, out := out })
  | .skipData len =>
    let (cache, pool) := s.cache.cacheSkipData s.pool len
    ({ s with cache := cache, pool := pool }, {})
  | .skipFirstBuffer =>
    let (cache, buff) := s.cache.cacheSkipFirstBuffer
    ({ s with cache := cache, hands := buff.toList ++ s.hands },
      { out := (buff.map TSkBuffer.data).getD [] })
  | .tcpRecv mallocs results =>
    let (cache, pool, ret, bytes) := s.cache.cacheTcpRecv s.pool mallocs results
    ({ s with cache := cache, pool := pool }, { ret := ret, received := bytes })
  | .tcpSend results =>
    let (cache, pool, ret, bytes) := s.cache.cacheTcpSend s.pool results
    ({ s with cache := cache, pool := pool }, { ret := ret, out := bytes })
  | .newBuffer size mallocs =>
    let (buff, pool, _) := s.pool.newSkBuffer size mallocs
    ({ s with pool := pool, hands := buff.toList ++ s.hands }, {})
  | .allocBuffer mallocs =>
    let (buff, pool, _) := s.pool.allocSkBuffer mallocs
    ({ s with pool := pool, hands := buff.toList ++ s.hands }, {})
  | .writeBuffer id offset data =>
    match s.hands.find? (·.id == id) with
    | none => (s, {})
    | some buff =>
      if offset + data.length ≤ buff.size then
        ({ s with hands := { buff with offset := offset, data := data } :: s.hands.erase buff }, {})
      else (s, {})
  | .freeBuffer id =>
    match s.hands.find? (·.id == id) with
    | none => (s, {})
    | some buff => ({ s with pool := s.pool.freeSkBuffer buff, hands := s.hands.erase buff }, {})

def step (s : CacheState) (op : CacheOp) : CacheState := (s.call op).1

end CacheState

end FStack.Model

import SortedTable.Filter.Pool
import SortedTable.Reader.Shared
import SortedTable.Main
import SortedTable.Proofs.RoundTrip
import SortedTable.Proofs.Writer.Atomic
import SortedTable.Proofs.Writer.Protocol
import SortedTable.Proofs.Session.Linear
import SortedTable.Proofs.Disorder
import SortedTable.Proofs.Fidelity
import SortedTable.Proofs.Decoder.Stable
import SortedTable.Proofs.Disk.Replace
import SortedTable.Proofs.Truncation
import SortedTable.Proofs.Session.Standing
import SortedTable.Proofs.Session.Tables
import SortedTable.Proofs.Session.Schedule
import SortedTable.Proofs.Leftovers
import SortedTable.Proofs.Limits
import SortedTable.Proofs.Wholeness
import SortedTable.Proofs.Writer.Abandon
import SortedTable.Proofs.Layout.Codec
import SortedTable.Proofs.Filter.Lifetime
import SortedTable.Proofs.Promotion
import SortedTable.Proofs.Positions
import SortedTable.Proofs.Counting
import SortedTable.Proofs.Session.Failure
import SortedTable.Proofs.Session.Restart
import SortedTable.Proofs.Writer.Progress
import SortedTable.Proofs.Session.Writable
import SortedTable.Proofs.Tool.Survival
import SortedTable.Proofs.Bytes
import SortedTable.Proofs.Decoder.Exact
import SortedTable.Proofs.Hash.Checksum
import SortedTable.Proofs.Corruption
import SortedTable.Memtable.Operation
import SortedTable.Proofs.Memtable.History
import SortedTable.Proofs.Memtable.Elements
import SortedTable.Proofs.Memtable.Ranges
import SortedTable.Proofs.Memtable.Size
import SortedTable.Proofs.Filter.Stored
import SortedTable.Proofs.Layout.IndexScan
import SortedTable.Proofs.Determinacy
import SortedTable.Proofs.Session.Housed
import SortedTable.Proofs.Session.Retry
import SortedTable.Proofs.Layout.Records
import SortedTable.Proofs.Surplus
import SortedTable.Proofs.Lookup
import SortedTable.Proofs.Miscount
import SortedTable.Proofs.Writer.Neighbours
import SortedTable.Proofs.Listing
import SortedTable.Proofs.Session.Arrangement
import SortedTable.Proofs.Session.Generations
import SortedTable.Proofs.Tool.Values
import SortedTable.Proofs.BlockIndex.Greedy
import SortedTable.Proofs.Hash.Murmur
import SortedTable.Proofs.Sink.Exchange

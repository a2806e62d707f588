import SortedTable.Proofs.RoundTrip
import SortedTable.Proofs.Layout.Sizes

namespace SortedTable

namespace Placed

variable {blockSize : UInt64} {placed : List (Placed blockSize)} {data index : Bytes}

end Placed

namespace Writer

variable {plan : WriterPlan} {folder : Path} {base : Disk}
  {placed : List (Placed plan.settings.blockSize)} {writer next : Writer} {store later : Store}

end Writer

namespace Writer

variable {blockSize : UInt64} {partitions : List Partition} {attempts : List Attempt}
  {before placed : List (Placed blockSize)}

end Writer

end SortedTable

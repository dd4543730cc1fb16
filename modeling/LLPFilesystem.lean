import LLPFilesystem.Linked
import LLPFilesystem.Bytes
import LLPFilesystem.Pages
import LLPFilesystem.Program
import LLPFilesystem.Environments
import LLPFilesystem.Pool
import LLPFilesystem.Paging
import LLPFilesystem.Pieces
import LLPFilesystem.Paths
import LLPFilesystem.FatServer
import LLPFilesystem.FatDisk
import LLPFilesystem.FatTable
import LLPFilesystem.FatChain
import LLPFilesystem.FatAlloc
import LLPFilesystem.FatDir
import LLPFilesystem.FatFile
import LLPFilesystem.FatOps
import LLPFilesystem.FatOwnership
import LLPFilesystem.FatFormat
import LLPFilesystem.FatRuns
import LLPFilesystem.FatScan
import LLPFilesystem.FatEntries
import LLPFilesystem.FatPaths
import LLPFilesystem.FatOneFile
import LLPFilesystem.FatContents
import LLPFilesystem.FatRead
import LLPFilesystem.FatWrite
import LLPFilesystem.FatSplice
import LLPFilesystem.FatRefusal
import LLPFilesystem.FatInsert
import LLPFilesystem.FatReads
import LLPFilesystem.FatCausal
import LLPFilesystem.FatSync
import LLPFilesystem.FatUpdates
import LLPFilesystem.FatRemount
import LLPFilesystem.FatLimits
import LLPFilesystem.FatTruncate
import LLPFilesystem.FatResolve
import LLPFilesystem.FatTree
import LLPFilesystem.FatDelete
import LLPFilesystem.FatCreate
import LLPFilesystem.FatCreation
import LLPFilesystem.FatDirectory
import LLPFilesystem.FatFileRuns
import LLPFilesystem.Hierarchy
import LLPFilesystem.FatHierarchy
import LLPFilesystem.FatTransitions
import LLPFilesystem.FatInit
import LLPFilesystem.FatCalls
import LLPFilesystem.FatSizes
import LLPFilesystem.FatHoles
import LLPFilesystem.FatListing
import LLPFilesystem.FatObserve
import LLPFilesystem.FatRefinement
import LLPFilesystem.FatAccounts
import LLPFilesystem.FatRestart
import LLPFilesystem.FatFailing
import LLPFilesystem.FatTelling
import LLPFilesystem.Text
import LLPFilesystem.FtpServer
import LLPFilesystem.FtpSession
import LLPFilesystem.FtpDirectories
import LLPFilesystem.FtpSegments
import LLPFilesystem.Slot
import LLPFilesystem.FtpDescriptors
import LLPFilesystem.FtpIsolation
import LLPFilesystem.FtpTransfers
import LLPFilesystem.FtpNames
import LLPFilesystem.FtpListing
import LLPFilesystem.FtpPaths
import LLPFilesystem.Frames
import LLPFilesystem.FtpReplies
import LLPFilesystem.Codec
import LLPFilesystem.Wire
import LLPFilesystem.NfsServer
import LLPFilesystem.NfsReplies
import LLPFilesystem.NfsHandles
import LLPFilesystem.NfsReading
import LLPFilesystem.NfsListing
import LLPFilesystem.NfsWire
import LLPFilesystem.NfsCalls
import LLPFilesystem.NfsClient

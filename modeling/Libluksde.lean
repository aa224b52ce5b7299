import Libluksde.AlikeVolumes
import Libluksde.CacheTransparency
import Libluksde.ContextHistory
import Libluksde.CryptRoundTrip
import Libluksde.DecimalOffsets
import Libluksde.Definitions
import Libluksde.Diffuser
import Libluksde.Diffusion
import Libluksde.DocumentedNames
import Libluksde.EncryptionContext
import Libluksde.EncryptionContextSpec
import Libluksde.EssivKeying
import Libluksde.FileEntries
import Libluksde.Formatter
import Libluksde.Formatting
import Libluksde.FuseIntegrity
import Libluksde.FuseOwnership
import Libluksde.FuseServer
import Libluksde.FuseSessions
import Libluksde.FuseTree
import Libluksde.Getopt
import Libluksde.HandleOwnership
import Libluksde.HeaderBounds
import Libluksde.HeaderReuse
import Libluksde.HeaderRoundTrip
import Libluksde.HistoryIndependence
import Libluksde.IvDerivation
import Libluksde.KeyDerivation
import Libluksde.KeyDerivationLimits
import Libluksde.KeyErasure
import Libluksde.KeyMaterial
import Libluksde.KeyMaterialBounds
import Libluksde.KeySetters
import Libluksde.KeySoundness
import Libluksde.KeyedContext
import Libluksde.Lib.Blocks
import Libluksde.Lib.Bytes
import Libluksde.Lib.Decimal
import Libluksde.Lib.FileReader
import Libluksde.Lib.FileServer
import Libluksde.Lib.Heap
import Libluksde.Lib.Keystream
import Libluksde.Lib.Machine
import Libluksde.Lib.Memo
import Libluksde.Lib.Pbkdf2
import Libluksde.Lib.Reading
import Libluksde.Lib.Refinement
import Libluksde.Lib.Secret
import Libluksde.Lib.Stores
import Libluksde.Lib.Stream
import Libluksde.Libraries
import Libluksde.LockState
import Libluksde.Luksdemount
import Libluksde.LuksdemountArguments
import Libluksde.LuksdemountFormatted
import Libluksde.LuksdemountSession
import Libluksde.MountCollections
import Libluksde.MountEntries
import Libluksde.MountFileSystem
import Libluksde.MountFuse
import Libluksde.MountHandle
import Libluksde.MountPaths
import Libluksde.OpenReadKeys
import Libluksde.OpenSpec
import Libluksde.Password
import Libluksde.PasswordPrompt
import Libluksde.PasswordState
import Libluksde.ReadComplete
import Libluksde.ReadContent
import Libluksde.ReadSpec
import Libluksde.ReadStream
import Libluksde.SectorData
import Libluksde.SectorDecryption
import Libluksde.SeekArithmetic
import Libluksde.Session
import Libluksde.SessionIndependence
import Libluksde.SessionInvariant
import Libluksde.SignatureCheck
import Libluksde.SpecificationNames
import Libluksde.SpecificationStrings
import Libluksde.SplitKey
import Libluksde.UnlockCompleteness
import Libluksde.UnlockInputs
import Libluksde.UnlockRetry
import Libluksde.UnlockSpec
import Libluksde.UnsupportedNames
import Libluksde.UserKeys
import Libluksde.Volume
import Libluksde.VolumeContent
import Libluksde.VolumeHeader
import Libluksde.VolumeOpen
import Libluksde.VolumeRead

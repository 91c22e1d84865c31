import Vantara.Properties.Groups
import Vantara.Properties.Waiting
import Vantara.Properties.Credentials
import Vantara.Properties.Handlers
import Vantara.Drivers.Keys
import Vantara.Drivers.Serial
import Vantara.Fs.Agreement
import Vantara.Properties.DescriptorTables
import Vantara.Properties.SavedContexts
import Vantara.Properties.StoppedJobs
import Vantara.Fs.RenameWalk
import Vantara.Properties.InitialStacks
import Vantara.Properties.LoadedImages
import Vantara.Properties.RoundRobin
import Vantara.Properties.BlockedTasks
import Vantara.Properties.UserRanges
import Vantara.Properties.Preemption
import Vantara.Properties.Channels
import Vantara.Properties.Reaper
import Vantara.Properties.ThreadRecords
import Vantara.Properties.Sentinel

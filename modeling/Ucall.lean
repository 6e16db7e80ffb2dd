import Ucall.Shared
import Ucall.Datastructures.Arena
import Ucall.Datastructures.Pool
import Ucall.Datastructures.RoundRobin
import Ucall.Datastructures.RoundRobinQueue
import Ucall.Datastructures.RoundRobinPoll
import Ucall.Datastructures.Heap
import Ucall.Helpers.Reply
